import Unicomm.Comm.System
import Unicomm.Dispatcher.Exclusion

/-!
# `Dispatcher.Steps` — what a move does to one communicator and to one thread

A move changes many things, but each communicator and each thread in one of few ways. `CommStep` and
`ThreadStep` list them, and `Move.commStep` and `Move.threadStep` say that there are no others; an invariant
about every communicator or every thread is then a case analysis over these, and not over the moves.

`Sessions` is such an invariant: what makes a stage of `mt_process` a sequence of effects holds of every
communicator in every reachable state.
-/

namespace Unicomm

open Relation (ReflTransGen)

variable {B : Build} {N M : Nat} {conf : Config B}

namespace Comm

/-- Any number of sends. -/
abbrev Sends (conf : Config B) : Comm B → Comm B → Prop :=
  ReflTransGen (fun c c' => ∃ m, c' = (c.prepareToWrite conf m).comm)

/-- What a send keeps, any number of sends keeps. -/
theorem Sends.invariant (inv : Comm B → Prop) (hsend : ∀ c m, inv c → inv (c.prepareToWrite conf m).comm)
    {c c' : Comm B} (h : Sends conf c c') (hc : inv c) : inv c' := by
  induction h with
  | refl => exact hc
  | tail _ hlast ih =>
      obtain ⟨m, rfl⟩ := hlast
      exact hsend _ m ih

/-- A pass of `send_all` sends to each communicator some number of times. -/
theorem sends_sendAllPass (clients : CommCollection) (m : BinMessage B) (comms : CommId → Comm B)
    (id : CommId) : Sends conf (comms id) ((sendAllPass conf clients m comms).comms id) := by
  have hsend : ∀ c m, Sends conf (comms id) c → Sends conf (comms id) (c.prepareToWrite conf m).comm :=
    fun _ m h => h.tail ⟨m, rfl⟩
  exact messageSender_invariant clients.toList hsend id ∅ m comms .refl

end Comm

namespace Running

variable {s s' : Running B N M} {a : Act B N M}

/-! ## One communicator -/

/-- **What becomes of communicator `id`.** -/
inductive CommStep (conf : Config B) (s : Running B N M) (a : Act B N M) (id : CommId) : Comm B → Prop where
  | same : CommStep conf s a id (s.comms id)
  | env {e : EnvAct B} {c : Comm B} (he : ∀ m, e ≠ .send m) (hc : (s.comms id).envStep conf e = some c) :
      CommStep conf s a id c
  | sends {c : Comm B} (hc : Comm.Sends conf (s.comms id) c) : CommStep conf s a id c
  | stage {t : Fin N} {ch : Choice B} {comms : List CommId} {st : Comm.Stage B} (ha : a = .thread t ch)
      (ht : s.threads t = .processing comms id st) :
      CommStep conf s a id (Comm.runStage conf ch st (s.comms id)).1
  | exception {t : Fin N} {ch : Choice B} {comms : List CommId} {e : Exc} (ha : a = .thread t ch)
      (ht : s.threads t = .caught comms id e) : CommStep conf s a id (handleException e (s.comms id))
  | disconnected {t : Fin N} {ch : Choice B} {comms : List CommId} (ha : a = .thread t ch)
      (ht : s.threads t = .removed comms id) : CommStep conf s a id (handleDisconnected (s.comms id))

/-- A change of one communicator is one of that communicator. -/
theorem CommStep.update {k id : CommId} {c : Comm B} (h : CommStep conf s a k c) :
    CommStep conf s a id (Function.update s.comms k c id) := by
  rw [Function.update_apply]
  split
  · next hid => rw [hid]; exact h
  · exact .same

theorem Move.commStep (hm : Move conf s a s') (id : CommId) : CommStep conf s a id (s'.comms id) := by
  have hnosend : ∀ {e : EnvAct B}, silent e = true ∨ reported e = true → ∀ m, e ≠ .send m := by
    rintro e (h | h) m rfl <;> cases h
  cases hm with
  | accept | start | take | empty | check | getBack | finish => exact .same
  | comm hid he hc => exact CommStep.update (.env (hnosend (.inl he)) hc)
  | report ha hid he hc => exact CommStep.update (.env (hnosend (.inr he)) hc)
  | send => exact CommStep.update (.sends (.single ⟨_, rfl⟩))
  | sendAllPrimary ha hp | sendAllExcluded ha hp => rw [hp]; exact .sends (Comm.sends_sendAllPass ..)
  | readAppend ha hid hc => exact CommStep.update (.env (fun _ he => by cases he) hc)
  | readUpdated ha hc => exact CommStep.update (.env (fun _ he => by cases he) hc)
  | @kick a mids k =>
      show CommStep conf s _ id ((s.kickStep k).2.comms id)
      rw [(s.kickStep_frame k).1]
      exact .same
  | @kickThread t ch comms k =>
      show CommStep conf s _ id ((s.kickStep k).2.comms id)
      rw [(s.kickStep_frame k).1]
      exact .same
  | stage ht => exact CommStep.update (.stage rfl ht)
  | caught ht =>
      unfold catchStep
      simp only
      split
      · split <;> exact .same
      · exact CommStep.update (.exception rfl ht)
  | removed ht => exact CommStep.update (.disconnected rfl ht)

/-! ## One thread -/

/-- **What becomes of thread `t`** when it moves. -/
inductive ThreadStep (conf : Config B) (s : Running B N M) (ch : Choice B) : Thread B → Thread B → Prop where
  | start : ThreadStep conf s ch .idle (.taking [])
  | take {comms : List CommId} {id : CommId} (hid : id ∈ s.clients.clients) :
      ThreadStep conf s ch (.taking comms) (s.enter comms id)
  | empty {comms : List CommId} : ThreadStep conf s ch (.taking comms) (.returning comms)
  | stage {comms : List CommId} {id : CommId} {st : Comm.Stage B} :
      ThreadStep conf s ch (.processing comms id st)
        (afterStage comms id (Comm.runStage conf ch st (s.comms id)).2)
  | check {comms : List CommId} {id : CommId} : ThreadStep conf s ch (.checking comms id)
      (if s.unprocessed id then .kicking (comms ++ [id]) .test else .taking (comms ++ [id]))
  | kick {comms : List CommId} {k : Kick} : ThreadStep conf s ch (.kicking comms k)
      (match (s.kickStep k).1 with | some k => .kicking comms k | none => .taking comms)
  | exception {comms : List CommId} {id : CommId} {e : Exc} :
      ThreadStep conf s ch (.caught comms id e) (.taking (comms ++ [id]))
  | erased {comms : List CommId} {id : CommId} {e : Exc} :
      ThreadStep conf s ch (.caught comms id e) (.removed comms id)
  | disconnected {comms : List CommId} {id : CommId} :
      ThreadStep conf s ch (.removed comms id) (.taking (comms ++ [id]))
  | getBack {id : CommId} {comms : List CommId} :
      ThreadStep conf s ch (.returning (id :: comms)) (.returning comms)
  | finish : ThreadStep conf s ch (.returning []) .idle

/-- Only the thread whose step it is moves. -/
theorem Move.threadStep (hm : Move conf s a s') (t : Fin N) :
    (s'.threads t = s.threads t ∧ ∀ ch, a ≠ .thread t ch)
      ∨ ∃ ch, a = .thread t ch ∧ ThreadStep conf s ch (s.threads t) (s'.threads t) := by
  -- the moves update one thread, so of any other nothing is to be shown
  have hupdate : ∀ {t' : Fin N} {ch : Choice B} {x y : Thread B}, s.threads t' = x → ThreadStep conf s ch x y →
      (Function.update s.threads t' y t = s.threads t ∧ ∀ ch', Act.thread t' ch ≠ (.thread t ch' : Act B N M))
        ∨ ∃ ch', Act.thread t' ch = (.thread t ch' : Act B N M)
            ∧ ThreadStep conf s ch' (s.threads t) (Function.update s.threads t' y t) := by
    intro t' ch x y hx hstep
    by_cases ht : t = t'
    · subst ht
      rw [Function.update_self, hx]
      exact .inr ⟨ch, rfl, hstep⟩
    · refine .inl ⟨Function.update_of_ne ht .., fun ch' he => ht ?_⟩
      injection he with he
      exact he.symm
  cases hm with
  | accept | comm | report | send | sendAllPrimary | sendAllExcluded | readAppend | readUpdated =>
      exact .inl ⟨rfl, nofun⟩
  | @kick a mids k => exact .inl ⟨congrFun (s.kickStep_frame k).2.2.2.1 t, nofun⟩
  | start ht => exact hupdate ht .start
  | take ht hid => exact hupdate ht (.take hid)
  | empty ht => exact hupdate ht .empty
  | stage ht => exact hupdate ht .stage
  | check ht => exact hupdate ht .check
  | @kickThread t' ch comms k ht =>
      have hthreads : ∀ x, ((s.kickStep k).2.setThread t' x).threads = Function.update s.threads t' x := by
        intro x
        unfold setThread
        rw [(s.kickStep_frame k).2.2.2.1]
      rw [hthreads]
      exact hupdate ht .kick
  | caught ht =>
      unfold catchStep
      simp only
      split
      · split
        · exact hupdate ht .erased
        · exact hupdate ht .exception
      · exact hupdate ht .exception
  | removed ht => exact hupdate ht .disconnected
  | getBack ht => exact hupdate ht .getBack
  | finish ht => exact hupdate ht .finish

end Running

/-! ## Sessions stay -/

namespace Comm

variable {ch : Choice B} {c c' : Comm B}

/-- No stage takes the session away. -/
theorem runStage_userSession {st : Stage B} (hs : c.userSession = true) :
    (runStage conf ch st c).1.userSession = true := by
  by_cases hpop : ∃ m, st = .popping m
  · obtain ⟨m, rfl⟩ := hpop
    exact hs
  · exact (runStage_effects (.of_session hs) (fun m hm => hpop ⟨m, hm⟩)).invariant
      (fun _ _ he hs => he.userSession hs) hs

/-- What changes none of the fields it speaks of keeps the session invariant. -/
theorem SessionInv.congr (h : c.SessionInv) (hs : c'.userSession = c.userSession)
    (hq : c'.prepearedMQueue = c.prepearedMQueue) (ho : c'.outBuffers = c.outBuffers)
    (hsent : c'.sentMessages = c.sentMessages) (ht : c'.mesTimeouts = c.mesTimeouts) : c'.SessionInv := by
  constructor
  · rw [hs, hq]; exact h.queue
  · rw [hs, ho]; exact h.out
  · rw [hs, hsent]; exact h.sent
  · rw [hs, ht]; exact h.timeouts

theorem SessionInv.disconnect (h : c.SessionInv) : c.disconnect.SessionInv :=
  h.congr (by simp) (by simp) (by simp) (by simp) (by simp)

theorem SessionInv.log (h : c.SessionInv) (es : List (Event B)) : (c.log es).SessionInv :=
  h.congr rfl rfl rfl rfl rfl

end Comm

namespace Running

variable {s s' : Running B N M} {a : Act B N M}

/-- What the `catch` blocks do to a communicator that stays. -/
theorem handleException_cases (e : Exc) (c : Comm B) :
    handleException e c = c.disconnect ∨ (c.userSession = true ∧ handleException e c = c.log [.error])
      ∨ handleException e c = c := by
  unfold handleException
  split
  · exact .inl rfl
  · split
    · next hs => exact .inr (.inl ⟨hs, rfl⟩)
    · exact .inr (.inr rfl)

theorem handleDisconnected_cases (c : Comm B) :
    (c.userSession = true ∧ handleDisconnected c = c.disconnect.log [.disconnected])
      ∨ (c.userSession = false ∧ handleDisconnected c = c.disconnect) := by
  unfold handleDisconnected
  simp only [Comm.disconnect_userSession]
  cases hs : c.userSession with
  | true  => exact .inl ⟨rfl, rfl⟩
  | false => exact .inr ⟨rfl, rfl⟩

/-- **A session stays.** -/
theorem CommStep.userSession {id : CommId} {c : Comm B} (h : CommStep conf s a id c)
    (hs : (s.comms id).userSession = true) : c.userSession = true := by
  cases h with
  | same => exact hs
  | env he hc => rw [(Comm.envStep_frame hc he).1]; exact hs
  | sends hc =>
      exact hc.invariant (fun c => c.userSession = true)
        (fun c m hs => by rw [Comm.prepareToWrite_userSession]; exact hs) hs
  | stage => exact Comm.runStage_userSession hs
  | @exception _ _ _ e =>
      rcases handleException_cases e (s.comms id) with h | ⟨-, h⟩ | h <;> rw [h]
      · rw [Comm.disconnect_userSession]; exact hs
      · exact hs
      · exact hs
  | disconnected =>
      rcases handleDisconnected_cases (s.comms id) with ⟨-, h⟩ | ⟨-, h⟩ <;> rw [h]
      · show (s.comms id).disconnect.userSession = true
        rw [Comm.disconnect_userSession]; exact hs
      · rw [Comm.disconnect_userSession]; exact hs

/-- The session invariant of every communicator, and: a thread that copied a message from a queue found it on a
    communicator with a session. -/
structure Sessions (s : Running B N M) : Prop where
  session : ∀ id, (s.comms id).SessionInv
  copied  : ∀ {t comms id m}, s.threads t = .processing comms id (.popping m) → (s.comms id).userSession = true

theorem Sessions.init : (Running.init : Running B N M).Sessions :=
  ⟨fun id => Comm.SessionInv.create id, fun h => by cases h⟩

/-- A step of one communicator. -/
theorem Sessions.commStep (h : s.Sessions) {id : CommId} {c : Comm B} (hc : CommStep conf s a id c) :
    c.SessionInv := by
  have hid := h.session id
  cases hc with
  | same => exact hid
  | env he hc => exact hid.envStep hc
  | sends hc => exact hc.invariant Comm.SessionInv (fun _ m h => h.send m) hid
  | @stage t ch comms st ha ht =>
      by_cases hpop : ∃ m, st = .popping m
      · obtain ⟨m, rfl⟩ := hpop
        exact .of_session (Comm.runStage_userSession (h.copied ht))
      · exact (Comm.runStage_effects hid (fun m hm => hpop ⟨m, hm⟩)).invariant
          (fun _ _ he hi => hi.effect he) hid
  | @exception _ _ _ e =>
      rcases handleException_cases e (s.comms id) with h | ⟨-, h⟩ | h <;> rw [h]
      · exact hid.disconnect
      · exact hid.log _
      · exact hid
  | disconnected =>
      rcases handleDisconnected_cases (s.comms id) with ⟨-, h⟩ | ⟨-, h⟩ <;> rw [h]
      · exact hid.disconnect.log _
      · exact hid.disconnect

/-- **Every move keeps it.** -/
theorem Sessions.move (h : s.Sessions) (hm : Move conf s a s') : s'.Sessions := by
  refine ⟨fun id => h.commStep (hm.commStep id), ?_⟩
  intro t comms id m ht
  refine (hm.commStep id).userSession ?_
  rcases hm.threadStep t with ⟨hsame, -⟩ | ⟨ch, -, hstep⟩
  · exact h.copied (by rw [← hsame, ht])
  · -- only the stage `write` copies a message, and it copies the front of the queue
    rw [ht] at hstep
    generalize hx : s.threads t = x at hstep
    generalize hy : Thread.processing comms id (.popping m) = y at hstep
    cases hstep with
    | @stage comms' id' st =>
        cases hn : (Comm.runStage conf ch st (s.comms id')).2 with
        | goto st' =>
            rw [hn] at hy
            cases hy
            obtain ⟨-, -, hfront⟩ := Comm.runStage_goto_popping hn
            by_contra hno
            unfold Comm.frontCopy at hfront
            rw [(h.session id).queue (Bool.eq_false_iff.mpr hno)] at hfront
            cases hfront
        | done     => rw [hn] at hy; cases hy
        | raised e => rw [hn] at hy; cases hy
    | @take comms' id' hid => unfold enter at hy; split at hy <;> cases hy
    | @check comms' id' => split at hy <;> cases hy
    | @kick comms' k => split at hy <;> cases hy
    | start | empty | exception | erased | disconnected | getBack | finish => cases hy

/-- Every reachable state. -/
theorem Sessions.run {as : List (Act B N M)} (hrun : Machine.run (step conf) Running.init as = some s) :
    s.Sessions :=
  Machine.run_invariant Sessions (fun _ _ _ h hs => h.move (step_move hs)) as _ _ .init hrun

end Running

end Unicomm
