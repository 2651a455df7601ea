import Unicomm.Comm.Own
import Unicomm.Dispatcher.Exclusion
import Unicomm.Lib.Family
import Unicomm.Lib.Projection

/-!
# `Dispatcher.Alone` — a communicator of the dispatcher is a communicator

`System` is one communicator with one thread in its `mt_process`; `Running` is a dispatcher with any number of
communicators, threads that hand them to each other, and other threads that look them up. `alone id` reads the one
out of the other: communicator `id` without what the dispatcher recorded, and the stage of whichever thread is inside
it. `actsOf id` is what a step of the dispatcher does to it, nothing most of the time and several sends when
`send_all` passes by. `alone_run` is the refinement: **what happens to a communicator in a run of the dispatcher is a
run of `System`**, so all that holds in every reachable state of `System` holds of every communicator here.
-/

namespace Unicomm

variable {B : Build} {N M : Nat} {conf : Config B}

/-! ## What the steps of the dispatcher are for one communicator -/

/-- Where a thread stands inside `mt_process` of communicator `id`. -/
def Thread.stage? (id : CommId) : Thread B → Option (Comm.Stage B)
  | .processing _ k st => if k = id then some st else none
  | _                  => none

/-- A thread inside `mt_process` holds the communicator. -/
theorem Thread.mem_comms_of_stage? {id : CommId} {x : Thread B} (h : x.stage? id ≠ none) : id ∈ x.comms := by
  cases x with
  | processing comms k st =>
      by_cases hk : k = id
      · rw [hk]
        exact List.mem_append_right _ List.mem_cons_self
      · exact absurd (if_neg hk) h
  | _ => exact absurd rfl h

/-- The messages `message_sender` gives to communicator `id`, with what the ones before have written into them. -/
def sentTo (conf : Config B) (id : CommId) : List CommId → BinMessage B → (CommId → Comm B) → List (BinMessage B)
  | [],      _,       _     => []
  | k :: ks, message, comms =>
      let p     := (comms k).prepareToWrite conf message
      let comms := Function.update comms k p.comm
      let rest  := match p.result with
        | .error _ => []
        | .ok _    => sentTo conf id ks p.message comms
      if k = id then message :: rest else rest

namespace Running

/-- What a `catch` block does to the communicator. -/
def exceptionActs (e : Exc) : List (System.Act B) :=
  match e with
  | .sessionCreationError _ => [.env .disconnect]
  | _                       => []

variable (conf) (id : CommId) (s : Running B N M)

/-- The stage of the thread that is inside `mt_process` of communicator `id`. -/
def stageOf : Option (Comm.Stage B) := Family.first? (fun t => (s.threads t).stage? id)

/-- **Communicator `id` alone.** -/
def alone : System B := ⟨(s.comms id).own, s.stageOf id⟩

/-- A pass of `send_all` over some clients, for communicator `id`. -/
def passActs (clients : CommCollection) (message : BinMessage B) : List (System.Act B) :=
  (sentTo conf id clients.toList message s.comms).map (fun m => .env (.send m))

/-- A step of a thread of the dispatcher, for communicator `id`. -/
def threadActs (t : Fin N) (ch : Choice B) : List (System.Act B) :=
  match s.threads t with
  | .taking _           =>
      match s.clients.takeOut with
      | (some k, _) => if k = id then [.enter] else []
      | (none, _)   => []
  | .processing _ k _   => if k = id then [.stage ch] else []
  | .caught _ k e       => if k = id ∧ disconnects e = false then exceptionActs e else []
  | .removed _ k        => if k = id then [.env .disconnect] else []
  | _                   => []

/-- **A step of the dispatcher, for communicator `id`.** -/
def actsOf : Act B N M → List (System.Act B)
  | .comm k e | .report _ k e => if k = id then [.env e] else []
  | .send _ k m               => if k = id then [.env (.send m)] else []
  | .sendAllPrimary _ m       => s.passActs conf id s.clients.clients m
  | .sendAllExcluded a        =>
      match s.agents a with
      | .sendingAll m _ => s.passActs conf id s.clients.excluded m
      | _               => []
  | .readAppend _ k bytes     => if k = id then [.env (.readAppend bytes)] else []
  | .readUpdated a            =>
      match s.agents a with
      | .reading k => if k = id then [.env .readUpdated] else []
      | _          => []
  | .thread t ch              => s.threadActs id t ch
  | _                         => []

variable {conf} {id} {s} {s' : Running B N M} {a : Act B N M}

/-! ## Reading a communicator off a state -/

theorem alone_congr (hc : (s'.comms id).own = (s.comms id).own)
    (ht : ∀ t, (s'.threads t).stage? id = (s.threads t).stage? id) : s'.alone id = s.alone id := by
  unfold alone stageOf
  rw [hc]
  simp only [ht]

/-- Only the thread that holds a communicator is inside its `mt_process`. -/
theorem Exclusive.stage?_eq_none (h : s.Exclusive) {t u : Fin N} (hid : id ∈ s.held t) (hu : u ≠ t) :
    (s.threads u).stage? id = none := by
  by_contra hno
  exact hu (h.custody.apart (Thread.mem_comms_of_stage? hno) hid)

/-- The thread that holds a communicator moves. -/
theorem Exclusive.alone_setThread (h : s.Exclusive) {t : Fin N} {x : Thread B} {c : Comm B} (hid : id ∈ s.held t) :
    ((s.setComm id c).setThread t x).alone id = ⟨c.own, x.stage? id⟩ := by
  have hstage : ((s.setComm id c).setThread t x).stageOf id = x.stage? id := by
    unfold stageOf
    rw [Family.first?_eq (i := t) (fun u hu => ?_)]
    · change (Function.update s.threads t x t).stage? id = _
      rw [Function.update_self]
    · change (Function.update s.threads t x u).stage? id = _
      rw [Function.update_of_ne hu]
      exact h.stage?_eq_none hid hu
  have hcomm : ((s.setComm id c).setThread t x).comms id = c := Function.update_self ..
  rw [alone, hstage, hcomm]

/-- Another thread's communicator is none of this one's business. -/
theorem alone_setThread_of_ne {t : Fin N} {x : Thread B} {k : CommId} {c : Comm B} (hk : k ≠ id)
    (hx : x.stage? id = none) (ht : (s.threads t).stage? id = none) :
    ((s.setComm k c).setThread t x).alone id = s.alone id := by
  refine alone_congr (congrArg Comm.own (Function.update_of_ne (Ne.symm hk) ..)) (fun u => ?_)
  change (Function.update s.threads t x u).stage? id = _
  rw [Function.update_apply]
  split
  · next hu => rw [hu, hx, ht]
  · rfl

/-! ## One step -/

/-- A step of the environment. -/
theorem run_env {e : EnvAct B} {c : Comm B} (hc : (s.comms id).envStep conf e = some c) :
    Machine.run (System.step conf) (s.alone id) [.env e] = some ⟨c.own, s.stageOf id⟩ := by
  have hblind : (s.alone id).comm.envStep conf e = some c.own := by
    have h : (s.comms id).own.envStep conf e = ((s.comms id).envStep conf e).map Comm.own :=
      Comm.Blind.envStep e (s.comms id)
    simp only [hc, Option.map_some] at h
    exact h
  rw [Machine.run_cons, System.step, hblind]
  rfl

/-- A step of the environment of some communicator. -/
theorem run_env_setComm {k : CommId} {e : EnvAct B} {c : Comm B} (hc : (s.comms k).envStep conf e = some c) :
    Machine.run (System.step conf) (s.alone id) (if k = id then [.env e] else [])
      = some ((s.setComm k c).alone id) := by
  split
  · next hk =>
      subst hk
      rw [run_env hc]
      unfold alone setComm
      simp only [Function.update_self]
      rfl
  · next hk =>
      have hsame : (s.setComm k c).alone id = s.alone id :=
        alone_congr (congrArg Comm.own (Function.update_of_ne (Ne.symm hk) ..)) (fun _ => rfl)
      rw [hsame]
      rfl

/-- A pass of `message_sender`. -/
theorem run_sentTo (id : CommId) (ks : List CommId) (sended : FullMessageidMap B) (m : BinMessage B)
    (s : Running B N M) :
    Machine.run (System.step conf) (s.alone id) ((sentTo conf id ks m s.comms).map (fun m => .env (.send m)))
      = some (Running.alone id { s with comms := (messageSender conf ks sended m s.comms).comms }) := by
  induction ks generalizing sended m s with
  | nil => rfl
  | cons k ks ih =>
      have hone : Machine.run (System.step conf) (s.alone id) (if k = id then [.env (.send m)] else [])
          = some ((s.setComm k ((s.comms k).prepareToWrite conf m).comm).alone id) := run_env_setComm rfl
      have hfirst : (if k = id then m :: [] else []).map (fun m => System.Act.env (.send m))
          = if k = id then [System.Act.env (.send m)] else [] := by split <;> rfl
      have hsplit : ∀ rest : List (BinMessage B),
          (if k = id then m :: rest else rest) = (if k = id then m :: [] else []) ++ rest := by
        intro rest
        split <;> rfl
      simp only [sentTo, messageSender]
      rw [hsplit, List.map_append, Machine.run_append, hfirst, hone, Option.bind_some]
      cases ((s.comms k).prepareToWrite conf m).result with
      | error e => rfl
      | ok mid  => exact ih _ _ (s.setComm k ((s.comms k).prepareToWrite conf m).comm)

/-- A thread moves and no communicator changes: unless it goes into or out of `mt_process` of this one, nothing
    happens. -/
theorem alone_setThread {t : Fin N} {x : Thread B} (hx : x.stage? id = (s.threads t).stage? id) :
    (s.setThread t x).alone id = s.alone id := by
  refine alone_congr rfl (fun u => ?_)
  change (Function.update s.threads t x u).stage? id = _
  rw [Function.update_apply]
  split
  · next hu => rw [hu, hx]
  · rfl

/-- A thread takes a communicator out. -/
theorem run_take (h : s.Exclusive) {t : Fin N} {comms : List CommId} {k : CommId} {clients : CommContainer}
    (ht : s.threads t = .taking comms) (hk : k ∈ s.clients.clients) :
    Machine.run (System.step conf) (s.alone id) (if k = id then [.enter] else [])
      = some (({ s with clients := clients }.setThread t (s.enter comms k)).alone id) := by
  -- a communicator among the clients is in nobody's hands, so its mutex is free
  have hfree : ¬ s.mutexHeld k := by
    rintro ⟨u, hu⟩
    exact h.custody.away (mem_held_of_inside hu) hk
  have hnone : ∀ u, (s.threads u).stage? k = none := by
    intro u
    by_contra hno
    exact h.custody.away (Thread.mem_comms_of_stage? hno) hk
  rw [enter, if_neg hfree]
  by_cases hid : k = id
  · subst hid
    -- for the communicator itself the thread enters `mt_process`
    have hout : s.stageOf k = none := Family.first?_eq_none.mpr hnone
    have hin : ({ s with clients := clients }.setThread t (.processing comms k .connect)).stageOf k
        = some .connect := by
      unfold stageOf
      rw [Family.first?_eq (i := t) (fun u hu => ?_)]
      · change (Function.update s.threads t _ t).stage? k = _
        rw [Function.update_self]
        exact if_pos rfl
      · change (Function.update s.threads t _ u).stage? k = _
        rw [Function.update_of_ne hu]
        exact hnone u
    rw [if_pos rfl, alone, alone, hin, hout]
    rfl
  -- any other one sees nothing of it
  · have hsame : ({ s with clients := clients }.setThread t (.processing comms k .connect)).alone id = s.alone id := by
      refine alone_setThread (s := { s with clients := clients }) ?_
      change (if k = id then _ else none) = (s.threads t).stage? id
      rw [ht, if_neg hid]
      rfl
    rw [if_neg hid, hsame]
    rfl

/-- A thread that is inside `mt_process` performs a stage. -/
theorem run_stage (h : s.Exclusive) {t : Fin N} {ch : Choice B} {comms : List CommId} {k : CommId} {st : Comm.Stage B}
    (ht : s.threads t = .processing comms k st) :
    Machine.run (System.step conf) (s.alone id) (if k = id then [.stage ch] else [])
      = some (((s.setComm k (Comm.runStage conf ch st (s.comms k)).1).setThread t
          (afterStage comms k (Comm.runStage conf ch st (s.comms k)).2)).alone id) := by
  have hheld : k ∈ s.held t := mem_held_of_inside (by rw [ht]; rfl)
  by_cases hid : k = id
  · subst hid
    have hproc : s.stageOf k = some st := by
      unfold stageOf
      rw [Family.first?_eq (i := t) (fun u hu => h.stage?_eq_none hheld hu), ht]
      exact if_pos rfl
    have hafter : (afterStage comms k (Comm.runStage conf ch st (s.comms k)).2).stage? k
        = System.afterStage (Comm.runStage conf ch st (s.comms k)).2 := by
      cases (Comm.runStage conf ch st (s.comms k)).2 with
      | goto st' => exact if_pos rfl
      | done | raised => rfl
    have hblind : Comm.runStage conf ch st (s.comms k).own = Comm.ownFst (Comm.runStage conf ch st (s.comms k)) :=
      Comm.Blind.runStage st (s.comms k)
    rw [if_pos rfl, h.alone_setThread hheld, hafter, alone, hproc, Machine.run_cons, System.step]
    simp only [hblind]
    rfl
  · have hsame : ((s.setComm k (Comm.runStage conf ch st (s.comms k)).1).setThread t
        (afterStage comms k (Comm.runStage conf ch st (s.comms k)).2)).alone id = s.alone id := by
      refine alone_setThread_of_ne hid ?_ (by rw [ht]; exact if_neg hid)
      cases (Comm.runStage conf ch st (s.comms k)).2 with
      | goto st' => exact if_neg hid
      | done | raised => rfl
    rw [if_neg hid, hsame]
    rfl

/-- What a `catch` block does to a communicator that stays. -/
theorem run_exception {e : Exc} :
    Machine.run (System.step conf) (s.alone id) (exceptionActs e)
      = some ⟨(handleException e (s.comms id)).own, s.stageOf id⟩ := by
  have hlog : ((s.comms id).log [.error]).own = (s.comms id).own :=
    Comm.own_log_of_not (fun x hx => by rw [List.mem_singleton.mp hx]; rfl) _
  have hrest : (if (s.comms id).userSession then (s.comms id).log [.error] else s.comms id).own = (s.comms id).own := by
    split
    · exact hlog
    · rfl
  cases e with
  | sessionCreationError => exact run_env rfl
  | _ => exact congrArg (fun c => some (System.mk c _)) hrest.symm

/-- The connection is closed; the session is told, and nobody sees it. -/
theorem own_handleDisconnected (c : Comm B) : (handleDisconnected c).own = c.disconnect.own := by
  unfold handleDisconnected
  simp only
  split
  · exact Comm.own_log_of_not (fun x hx => by rw [List.mem_singleton.mp hx]; rfl) _
  · rfl

/-- A thread leaves a `catch` block of a communicator it holds. -/
theorem run_leave (h : s.Exclusive) {t : Fin N} {comms' : List CommId} {k : CommId} {c : Comm B}
    {acts : List (System.Act B)} (hheld : k ∈ s.held t) (hout : ∀ id, (s.threads t).stage? id = none)
    (hrun : Machine.run (System.step conf) (s.alone k) acts = some ⟨c.own, s.stageOf k⟩) :
    Machine.run (System.step conf) (s.alone id) (if k = id then acts else [])
      = some (((s.setComm k c).setThread t (.taking comms')).alone id) := by
  by_cases hid : k = id
  · subst hid
    have hproc : s.stageOf k = none := by
      unfold stageOf
      rw [Family.first?_eq (i := t) (fun u hu => h.stage?_eq_none hheld hu), hout]
    rw [if_pos rfl, hrun, h.alone_setThread hheld, hproc]
    rfl
  · rw [if_neg hid, alone_setThread_of_ne hid rfl (hout id)]
    rfl

/-- **Each step of the dispatcher is explained.** -/
theorem run_step (id : CommId) (h : s.Exclusive) (hs : step conf s a = some s') :
    Machine.run (System.step conf) (s.alone id) (s.actsOf conf id a) = some (s'.alone id) := by
  have hquiet : ∀ {t : Fin N} {ch : Choice B} {x : Thread B}, s.threadActs id t ch = [] →
      (∀ id, (s.threads t).stage? id = none) → x.stage? id = none →
      Machine.run (System.step conf) (s.alone id) (s.threadActs id t ch) = some ((s.setThread t x).alone id) := by
    intro t ch x hacts hout hx
    rw [hacts, alone_setThread (by rw [hx, hout id])]
    rfl
  cases step_move hs with
  | accept => rfl
  | comm hid he hc => exact run_env_setComm hc
  | report ha hid he hc => exact run_env_setComm hc
  | send => exact run_env_setComm rfl
  | sendAllPrimary ha hp =>
      rw [hp]
      exact run_sentTo id _ ∅ _ s
  | sendAllExcluded ha hp =>
      rw [hp]
      simp only [actsOf, ha]
      exact run_sentTo id _ ∅ _ s
  | readAppend ha hid hc => exact run_env_setComm hc
  | readUpdated ha hc =>
      simp only [actsOf, ha]
      exact run_env_setComm hc
  | @kick a mids k =>
      obtain ⟨hd, -, -, ht, -⟩ := s.kickStep_frame k
      have hsame : (s.kickStep k).2.alone id = s.alone id := by
        refine alone_congr ?_ (fun t => by rw [ht])
        rw [congrArg Dispatcher.comms hd]
      exact congrArg some hsame.symm
  | start ht =>
      simp only [actsOf, threadActs, ht]
      rw [alone_setThread (s := { s with kickQueue := _, kickCount := _ }) (by rw [ht]; rfl)]
      rfl
  | @take t ch comms k ht hk =>
      -- `step` says which one is taken out
      rcases s.clients.takeOut_cases with ⟨-, hno⟩ | ⟨first, hfirst, htake⟩
      · exact absurd hk (hno k)
      · have hstep : step conf s (.thread t ch) = some ({ s with clients :=
            ⟨s.clients.clients.erase first, s.clients.excluded.insert first⟩ }.setThread t (s.enter comms first)) := by
          simp only [step, threadStep, ht, htake]
        rw [hstep] at hs
        rw [← Option.some.inj hs]
        simp only [actsOf, threadActs, ht, htake]
        exact run_take h ht hfirst
  | @empty t ch comms ht hno =>
      rcases s.clients.takeOut_cases with ⟨htake, -⟩ | ⟨first, hfirst, -⟩
      · exact hquiet (by simp only [threadActs, ht, htake]) (fun id => by rw [ht]; rfl) rfl
      · exact absurd hfirst (hno first)
  | stage ht =>
      simp only [actsOf, threadActs, ht]
      exact run_stage h ht
  | check ht =>
      refine hquiet (by simp only [threadActs, ht]) (fun id => by rw [ht]; rfl) ?_
      split <;> rfl
  | @kickThread t ch comms k ht =>
      obtain ⟨hd, -, -, hthreads, -⟩ := s.kickStep_frame k
      have hsame : ∀ th : Thread B, th.stage? id = (s.threads t).stage? id →
          ((s.kickStep k).2.setThread t th).alone id = s.alone id := by
        intro th hth
        rw [alone_setThread]
        · refine alone_congr ?_ (fun t => by rw [hthreads])
          rw [congrArg Dispatcher.comms hd]
        · rw [hthreads]
          exact hth
      simp only [actsOf, threadActs, ht]
      refine congrArg some (hsame _ ?_).symm
      rw [ht]
      cases (s.kickStep k).1 <;> rfl
  | @caught t ch comms k e ht =>
      have hheld : k ∈ s.held t := by
        change k ∈ (s.threads t).comms
        rw [ht]
        exact List.mem_append_right _ List.mem_cons_self
      simp only [actsOf, threadActs, ht, catchStep]
      cases disconnects e with
      | true =>
          simp only [Bool.true_eq_false, and_false, if_false, if_true]
          split
          · rw [alone_setThread (s := { s with clients := _, erased := _ }) (by rw [ht]; rfl)]
            rfl
          · rw [alone_setThread (by rw [ht]; rfl)]
            rfl
      | false =>
          simp only [and_true, Bool.false_eq_true, if_false]
          exact run_leave h hheld (fun id => by rw [ht]; rfl) run_exception
  | @removed t ch comms k ht =>
      have hheld : k ∈ s.held t := by
        change k ∈ (s.threads t).comms
        rw [ht]
        exact List.mem_append_right _ List.mem_cons_self
      simp only [actsOf, threadActs, ht]
      refine run_leave h hheld (fun id => by rw [ht]; rfl) ?_
      rw [own_handleDisconnected]
      exact run_env rfl
  | getBack ht =>
      simp only [actsOf, threadActs, ht]
      rw [alone_setThread (s := { s with clients := _ }) (by rw [ht]; rfl)]
      rfl
  | finish ht => exact hquiet (by simp only [threadActs, ht]) (fun id => by rw [ht]; rfl) rfl

/-- Nothing was connected yet. -/
theorem alone_init (id : CommId) : (Running.init : Running B N M).alone id = System.init id := by
  have hnone : (Running.init : Running B N M).stageOf id = none := Family.first?_eq_none.mpr (fun _ => rfl)
  rw [alone, hnone]
  rfl

/-- What happened to communicator `id` in a run of the dispatcher. -/
def trace (conf : Config B) (id : CommId) (as : List (Act B N M)) : List (System.Act B) :=
  Machine.outputs (step conf) (actsOf conf id) Running.init as

/-- **A communicator of the dispatcher is a communicator.** Whatever the threads, the other connections and the
    callers of `send` and `send_all` do, what happens to a communicator is a run of `System`, which ends where the
    communicator is now; and the thread that `System` has in `mt_process` is the one thread that is inside. -/
theorem alone_run (conf : Config B) (id : CommId) (as : List (Act B N M)) (s : Running B N M)
    (hrun : Machine.run (step conf) Running.init as = some s) :
    Machine.run (System.step conf) (System.init id) (trace conf id as) = some (s.alone id)
      ∧ ∀ st, (s.alone id).proc = some st ↔ ∃ t comms, s.threads t = .processing comms id st := by
  have h : s.Exclusive := Exclusive.run hrun
  refine ⟨?_, fun st => ⟨fun hst => ?_, fun hst => ?_⟩⟩
  · rw [← alone_init (N := N) (M := M) id]
    exact Machine.run_project (fun s : Running B N M => s.alone id) (actsOf conf id) Exclusive
      (fun _ _ _ h hs => h.move (step_move hs)) (fun _ _ _ h hs => run_step id h hs) as _ _ .init hrun
  · obtain ⟨t, ht⟩ := Family.exists_of_first? hst
    cases hx : s.threads t with
    | processing comms k st' =>
        rw [hx] at ht
        change (if k = id then some st' else none) = some st at ht
        split at ht <;> cases ht
        next hk => exact ⟨t, comms, by rw [hx, hk]⟩
    | _ => rw [hx] at ht; cases ht
  · obtain ⟨t, comms, ht⟩ := hst
    have hheld : id ∈ s.held t := mem_held_of_inside (by rw [ht]; rfl)
    change s.stageOf id = some st
    unfold stageOf
    rw [Family.first?_eq (i := t) (fun u hu => h.stage?_eq_none hheld hu), ht]
    exact if_pos rfl

/-- Two connections, each with a thread of its own; the first one's handler throws, and its communicator is erased. -/
theorem alone_run_takenOut : ∃ s, Machine.run (step Config.plain) Running.init takenOut = some s
    ∧ trace Config.plain 0 takenOut ≠ []
    ∧ Machine.run (System.step Config.plain) (System.init 0) (trace Config.plain 0 takenOut) = some (s.alone 0)
    ∧ ∀ st, (s.alone 0).proc = some st ↔ ∃ t comms, s.threads t = .processing comms 0 st :=
  ⟨_, rfl, by decide +kernel, alone_run .plain 0 takenOut _ rfl⟩

end Running

end Unicomm
