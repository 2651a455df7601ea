import Unicomm.Comm.SessionUse

/-!
# `Comm.SessionStages` — the stages of `mt_process` are runs of its steps

`Comm.System` runs a stage of `mt_process` in one step, and a send in one; `Comm.SessionUse` runs both step by
step. Here the two meet: whatever a `System` does, a `SessionSystem` does, with the same communicator in the end.
So the coarse model adds no behaviour of its own.

`ProcRun` and `SendRun` are runs of one thread; each function of `Comm.Process` gets one lemma that says which run
it is, and `runStage_run` puts them together.
-/

namespace Unicomm

variable {B : Build}

namespace Comm

/-- The position at the start of a stage. -/
def Pos.ofStage : Stage B → Pos B
  | .connect        => .connect
  | .sent           => .sent
  | .arrived        => .arrived
  | .decode         => .decode
  | .clearUpdated   => .clearUpdated
  | .write          => .write
  | .popping m      => .popping m
  | .timeouts       => .timeouts
  | .errors         => .errors
  | .afterProcessed => .afterProcessed

variable {conf : Config B} {ch : Choice B}

/-! ## Runs of one thread -/

/-- A thread inside `send` runs to its end. -/
inductive SendRun (conf : Config B) : Comm B → SendPos B → Comm B → After (SendPos B) → Prop where
  | last {c c' : Comm B} {p : SendPos B} {r : After (SendPos B)} (h : sendStep conf p c = (c', r))
      (hend : r = .returned ∨ r = .threw) : SendRun conf c p c' r
  | step {c d c' : Comm B} {p q : SendPos B} {r : After (SendPos B)} (h : sendStep conf p c = (d, .goto q))
      (hrest : SendRun conf d q c' r) : SendRun conf c p c' r

/-- The thread inside `mt_process` makes some steps; in none of them the session factory returns null. -/
inductive ProcRun (conf : Config B) : Comm B → Pos B → Comm B → Option (Pos B) → Prop where
  | last {c c' : Comm B} {p : Pos B} {r : After (Pos B)} (ch : Choice B) (hctor : ch.ctor ≠ .null)
      (h : procStep conf ch false p c = (c', r)) (hused : r ≠ .failed) : ProcRun conf c p c' r.pos?
  | step {c d c' : Comm B} {p q : Pos B} {r : Option (Pos B)} (ch : Choice B) (hctor : ch.ctor ≠ .null)
      (h : procStep conf ch false p c = (d, .goto q)) (hrest : ProcRun conf d q c' r) : ProcRun conf c p c' r

/-- A run to the end of the reply's `send` is a run inside `mt_process`. -/
theorem SendRun.inReply (hctor : ch.ctor ≠ .null) {c c' : Comm B} {p : SendPos B} {r : After (SendPos B)}
    (h : SendRun conf c p c' r) : ProcRun conf c (.reply p) c' r.inReply.pos? := by
  induction h with
  | last h hend =>
      refine .last ch hctor (by rw [procStep, h]) ?_
      rcases hend with rfl | rfl <;> simp [After.inReply]
  | step h _ ih => exact .step ch hctor (by rw [procStep, h]; rfl) ih

/-! ## `send` -/

/-- How `send` ends. -/
def sendEnd : Except Exc (MessageId B) → After (SendPos B)
  | .ok _    => .returned
  | .error _ => .threw

/-- **`prepare_to_write` is a run of `send`.** -/
theorem prepareToWrite_run (conf : Config B) (m : BinMessage B) (c : Comm B) :
    SendRun conf c (.start m false) (c.prepareToWrite conf m).comm (sendEnd (c.prepareToWrite conf m).result) := by
  have htest : ∀ b, c.userSession = b →
      sendStep conf (.session (stamped conf m c) false) (drawMid conf m c).2
        = ((drawMid conf m c).2, if b then .goto (.encode (stamped conf m c) false) else .threw) := by
    intro b hb
    rw [sendStep, drawMid_userSession, hb]
  have hcall : ∀ r, c.userSession = true → (drawMid conf m c).2.useSession r = (r : Comm B × After (SendPos B)) :=
    fun r hs => useSession_of_session (drawMid_userSession.trans hs) r
  rcases prepareToWrite_cases conf m c with ⟨e, h, hwhy⟩ | ⟨out, hs, henc, h⟩
  · rw [h]
    refine .step rfl ?_
    cases hs : c.userSession with
    | false => exact .last (htest false hs) (.inr rfl)
    | true =>
        have henc := hwhy.resolve_left (by rw [hs]; decide)
        refine .step (htest true hs) (.last ?_ (.inr rfl))
        rw [sendStep, hcall _ hs, henc]
        rfl
  · rw [h]
    have hpush : sendStep conf (.push ⟨(drawMid conf m c).1, m.name, sendPriority conf m, out⟩ false)
        (drawMid conf m c).2 = (_, .returned) := rfl
    refine .step rfl (.step (htest true hs) (.step ?_ (.last hpush (.inl rfl))))
    rw [sendStep, hcall _ hs, henc]
    rfl

/-! ## The functions of `mt_process` -/

/-- Where the thread stands after a function that may throw: out of `mt_process`, or at the next stage. -/
def exitTo (s : Stage B) : Option Exc → Option (Pos B)
  | none   => some (.ofStage s)
  | some _ => none

/-- A call of `user_session()` that is followed by a handler: the thread goes on unless the handler throws. -/
theorem procStep_handler {c d : Comm B} {u : Use B} {r : After (Pos B)} (hs : c.userSession = true)
    (h : useStep conf ch false u c = (d, afterHandler ch r)) :
    (ch.handler 0 = none → procStep conf ch false (.call u) c = (d, r))
      ∧ ∀ e, ch.handler 0 = some e → procStep conf ch false (.call u) c = (d, .threw) := by
  have hcall : procStep conf ch false (.call u) c = (d, afterHandler ch r) := by
    rw [procStep, useSession_of_session hs, h]
  rw [afterHandler] at hcall
  constructor
  · intro hout
    rw [hout] at hcall
    exact hcall
  · intro e hout
    rw [hout] at hcall
    exact hcall

/-- **A call that is followed by a handler**, and what the thread does behind it. -/
theorem ProcRun.handlerThen (ch : Choice B) (hctor : ch.ctor ≠ .null) {c d : Comm B} {u : Use B} {q : Pos B}
    {s : Stage B} {k : Comm B → Option Exc × Comm B} (hs : c.userSession = true)
    (h : useStep conf ch false u c = (d, afterHandler ch (.goto q)))
    (hrest : ProcRun conf d q (k d).2 (exitTo s (k d).1)) :
    ProcRun conf c (.call u) (andThen (ch.handler 0, d) k).2 (exitTo s (andThen (ch.handler 0, d) k).1) := by
  obtain ⟨hgoes, hthrows⟩ := procStep_handler hs h
  cases hout : ch.handler 0 with
  | some e => exact .last ch hctor (hthrows e hout) (by simp)
  | none => exact .step ch hctor (hgoes hout) hrest

/-- The same where the thread goes on with the next stage. -/
theorem ProcRun.handlerLast (ch : Choice B) (hctor : ch.ctor ≠ .null) {c d : Comm B} {u : Use B} {s : Stage B}
    (hs : c.userSession = true) (h : useStep conf ch false u c = (d, afterHandler ch (.goto (.ofStage s)))) :
    ProcRun conf c (.call u) d (exitTo s (ch.handler 0)) := by
  obtain ⟨hgoes, hthrows⟩ := procStep_handler hs h
  cases hout : ch.handler 0 with
  | some e => exact .last ch hctor (hthrows e hout) (by simp)
  | none => exact .last ch hctor (hgoes hout) (After.goto_ne _)

/-- The rest of `handle_connected_success` behind `create_user_session`. -/
theorem callConnected_run (hctor : ch.ctor ≠ .null) {c : Comm B} (hs : c.userSession = true) :
    ProcRun conf c (.call .createUserSession) (c.callHandler .connected (ch.handler 0)).2.mtStartRead
      (exitTo .sent (c.callHandler .connected (ch.handler 0)).1) := by
  rw [callHandler, if_pos hs]
  refine .step ch hctor ?_ (.handlerLast (u := .callConnected) ch hctor hs rfl)
  rw [procStep, useSession_of_session hs]
  rfl

/-- **`handle_connected_success`**, from `create_user_session` on. -/
theorem handleConnectedSuccess_run (hctor : ch.ctor ≠ .null) (c : Comm B) :
    ProcRun conf c .createUserSession
      (andThen (c.createUserSession conf ch.ctor) (callHandler .connected (ch.handler 0))).2.mtStartRead
      (exitTo .sent (andThen (c.createUserSession conf ch.ctor) (callHandler .connected (ch.handler 0))).1) := by
  cases hs : c.userSession with
  | true =>
      rw [createUserSession, if_pos hs, andThen]
      refine .step ch hctor ?_ (callConnected_run hctor hs)
      rw [procStep, hs]
      rfl
  | false =>
      have hfactory : procStep conf ch false .createUserSession c = (c, .goto .factory) := by
        rw [procStep, hs]
        rfl
      rw [createUserSession, if_neg (by rw [hs]; decide)]
      refine .step ch hctor hfactory ?_
      cases hout : callSessionFactory conf ch.ctor with
      | null => exact absurd hout (callSessionFactory_ne_null hctor)
      | session =>
          refine .step ch hctor ?_ (callConnected_run hctor rfl)
          rw [procStep, hout]
      | throwsStd what =>
          refine .last ch hctor (r := .threw) ?_ (by simp)
          rw [procStep, hout]
          rfl
      | throwsUnknown =>
          refine .last ch hctor (r := .threw) ?_ (by simp)
          rw [procStep, hout]
          rfl

/-- The choice whose handler ends as the `i`-th call of a stage's does. -/
def Choice.atCall (ch : Choice B) (i : Nat) : Choice B := { ch with handler := fun _ => ch.handler i }

/-- **The loop of `mt_process_sent`.** -/
theorem mtProcessSentLoop_run (hctor : ch.ctor ≠ .null) (sent : List (SentMessageInfo B)) (i : Nat) {c : Comm B}
    (hs : c.userSession = true) (hsent : c.sentMessages = sent) :
    ProcRun conf c .sentLoop (mtProcessSentLoop conf ch i sent c).2
      (exitTo .arrived (mtProcessSentLoop conf ch i sent c).1) := by
  induction sent generalizing i c with
  | nil =>
      refine .last ch hctor (r := .goto .arrived) ?_ (After.goto_ne _)
      rw [procStep, hsent]
      rfl
  | cons it sent ih =>
      have hs' : (c.regSent conf ch it sent).userSession = true := by rw [regSent_userSession, hs]
      have htake : procStep conf (Choice.atCall ch i) false .sentLoop c
          = (c.regSent conf ch it sent, .goto (.call (.callMessageSent it.mid))) := by
        rw [procStep, hsent]
        rfl
      rw [mtProcessSentLoop_cons hs]
      exact .step _ hctor htake (.handlerThen (Choice.atCall ch i) hctor hs' rfl (ih (i + 1) hs' rfl))

/-- **The loop of `process_timeouts`.** -/
theorem processTimeoutsLoop_run (hctor : ch.ctor ≠ .null) (its : List (MessageId B × MessageTimeoutInfo)) (i : Nat)
    {c : Comm B} (hs : its ≠ [] → c.userSession = true) :
    ProcRun conf c (.timeoutLoop its) (processTimeoutsLoop ch i its c).2
      (exitTo .errors (processTimeoutsLoop ch i its c).1) := by
  induction its generalizing i c with
  | nil => exact .last ch hctor (r := .goto .errors) rfl (After.goto_ne _)
  | cons p its ih =>
      obtain ⟨mid, info⟩ := p
      have hs := hs (List.cons_ne_nil _ _)
      rw [processTimeoutsLoop]
      split
      · next helapsed =>
          have hs' : (c.unregMessageTimeout mid).userSession = true := hs
          have htake : procStep conf (Choice.atCall ch i) false (.timeoutLoop ((mid, info) :: its)) c
              = (c.unregMessageTimeout mid, .goto (.call (.callMessageTimeout mid its))) := by
            rw [procStep]
            exact if_pos helapsed
          rw [callHandler, if_pos hs']
          exact .step _ hctor htake (.handlerThen (Choice.atCall ch i) hctor hs' rfl (ih (i + 1) (fun _ => hs')))
      · next helapsed =>
          refine .step ch hctor ?_ (ih i (fun _ => hs))
          rw [procStep]
          exact if_neg helapsed

/-- **`process_received`**, from `call_message_arrived` on. -/
theorem processReceived_run (hctor : ch.ctor ≠ .null) {c : Comm B} (hs : c.userSession = true) (m : BinMessage B) :
    ProcRun conf (c.offerMid conf).2 (.call (.callMessageArrived m (c.offerMid conf).1))
      (processReceived conf ch m c).2 (exitTo .decode (processReceived conf ch m c).1) := by
  have hs' : (c.offerMid conf).2.userSession = true := by rw [offerMid_userSession, hs]
  rw [processReceived, ← offerMid]
  simp only [callHandler, if_pos hs']
  cases hreply : ch.reply (c.offerMid conf).1 with
  | none =>
      have huse : useStep conf ch false (.callMessageArrived m (c.offerMid conf).1) (c.offerMid conf).2
          = ((c.offerMid conf).2.log [.messageArrived m], afterHandler ch (.goto (.ofStage .decode))) := by
        rw [useStep, hreply]
        rfl
      have hrun := ProcRun.handlerLast ch hctor hs' huse
      cases hout : ch.handler 0 <;> rw [hout] at hrun <;> exact hrun
  | some outm =>
      have huse : useStep conf ch false (.callMessageArrived m (c.offerMid conf).1) (c.offerMid conf).2
          = ((c.offerMid conf).2.log [.messageArrived m],
              afterHandler ch (.goto (.reply (.start (makeReply conf (c.offerMid conf).1 m outm) false)))) := by
        rw [useStep, hreply]
      refine .handlerThen ch hctor hs' huse ?_
      have hsend := (prepareToWrite_run conf (makeReply conf (c.offerMid conf).1 m outm)
        ((c.offerMid conf).2.log [.messageArrived m])).inReply hctor
      simp only
      cases hresult : (prepareToWrite conf (makeReply conf (c.offerMid conf).1 m outm)
          ((c.offerMid conf).2.log [.messageArrived m])).result <;> rw [hresult] at hsend <;> exact hsend

/-- **`process_incoming`.** -/
theorem processIncoming_run (hctor : ch.ctor ≠ .null) {c : Comm B} (hs : c.userSession = true) (m : BinMessage B) :
    ProcRun conf c (.incoming m) (processIncoming conf ch m c).2 (exitTo .decode (processIncoming conf ch m c).1) := by
  rw [processIncoming]
  by_cases hrid : m.ridExists = true
  · rw [if_pos hrid, processReply]
    cases hreq : c.mesTimeouts[m.rid]? with
    | none =>
        refine .last ch hctor (r := .goto .decode) ?_ (After.goto_ne _)
        rw [procStep, if_pos hrid, hreq]
    | some req =>
        simp only
        split
        · next hallowed =>
            refine .step ch hctor ?_ (processReceived_run (c := c.unregMessageTimeout m.rid) hctor hs m)
            rw [procStep, if_pos hrid, hreq]
            exact if_pos hallowed
        · next hallowed =>
            refine .last ch hctor (r := .threw) ?_ (by simp)
            rw [procStep, if_pos hrid, hreq]
            exact if_neg hallowed
  · rw [if_neg hrid]
    refine .step ch hctor ?_ (processReceived_run hctor hs m)
    rw [procStep, if_neg hrid]
    rfl

/-! ## The stages -/

/-- The position after a stage. -/
def next (n : Next B) : Option (Pos B) := (System.afterStage n).map Pos.ofStage

theorem next_proceed (s : Stage B) (r : Option Exc × Comm B) : next (proceed (.goto s) r).2 = exitTo s r.1 := by
  obtain ⟨_ | e, c⟩ := r <;> rfl

/-- **The decoding loop**, one turn of it. -/
theorem decode_run (hctor : ch.ctor ≠ .null) (c : Comm B) :
    ProcRun conf c .decode (runStage conf ch .decode c).1 (next (runStage conf ch .decode c).2) := by
  rw [runStage]
  by_cases hmore : (c.inBufferUpdated && !ch.elapsed) = true
  · have htest : procStep conf ch false .decode c = (c, .goto .decodeSession) := by
      rw [procStep, if_pos hmore]
    rw [if_pos hmore]
    refine .step ch hctor htest ?_
    by_cases hs : c.userSession = true
    -- `mt_perform_decode` is the session test and the decoder behind it
    · have hsession : procStep conf ch false .decodeSession c = (c, .goto (.call .decode)) := by
        rw [procStep, if_pos hs]
      have htaken : mtPerformDecode conf c = ((conf.messageDecoder.performDecode c.inBuffer).1,
          { c with inBuffer := (conf.messageDecoder.performDecode c.inBuffer).2 }) := by
        rw [mtPerformDecode, if_pos hs]
      rw [htaken]
      refine .step ch hctor hsession ?_
      cases hdec : (conf.messageDecoder.performDecode c.inBuffer).1 with
      | error e =>
          refine .last ch hctor (r := .threw) ?_ (by simp)
          rw [procStep, useSession_of_session hs, useStep, hdec]
      | ok got =>
          cases got with
          | none =>
              refine .last ch hctor (r := .goto .clearUpdated) ?_ (After.goto_ne _)
              rw [procStep, useSession_of_session hs, useStep, hdec]
          | some m =>
              simp only [proceed_fst, next_proceed]
              refine .step ch hctor ?_
                (processIncoming_run
                  (c := { c with inBuffer := (conf.messageDecoder.performDecode c.inBuffer).2 }) hctor hs m)
              rw [procStep, useSession_of_session hs, useStep, hdec]
    -- without a session the test throws, as the stage does
    · have hthrew : mtPerformDecode conf c = (.error c.invalidSession, c) := by
        rw [mtPerformDecode, if_neg hs]
      rw [hthrew]
      refine .last ch hctor (r := .threw) ?_ (by simp)
      rw [procStep, if_neg hs]
  · rw [if_neg hmore]
    refine .last ch hctor (r := .goto .write) ?_ (After.goto_ne _)
    rw [procStep, if_neg hmore]

/-- **A stage of `mt_process` is a run of its steps.** -/
theorem runStage_run (hctor : ch.ctor ≠ .null) {c : Comm B} (hinv : c.SessionInv) (s : Stage B) :
    ProcRun conf c (.ofStage s) (runStage conf ch s c).1 (next (runStage conf ch s c).2) := by
  cases s with
  | connect =>
      rw [runStage]
      split
      · next hjc =>
          rw [proceed_fst, next_proceed]
          refine .step ch hctor ?_
            (handleConnectedSuccess_run hctor { c with justConnected := false, isConnected := true })
          rw [Pos.ofStage, procStep, if_pos hjc]
      · next hjc =>
          refine .last ch hctor (r := .goto .sent) ?_ (After.goto_ne _)
          rw [Pos.ofStage, procStep, if_neg hjc]
  | sent =>
      rw [runStage]
      split
      · next hempty =>
          refine .last ch hctor (r := .goto .arrived) ?_ (After.goto_ne _)
          rw [Pos.ofStage, procStep, if_pos hempty]
      · next hempty =>
          -- a loop with something to go over has a session, or the collection would be empty
          have hs : c.userSession = true := by
            by_contra hno
            exact hempty (by rw [hinv.sent (Bool.eq_false_iff.mpr hno)]; rfl)
          rw [proceed_fst, next_proceed]
          refine .step ch hctor ?_ (mtProcessSentLoop_run hctor c.sentMessages 0 hs rfl)
          rw [Pos.ofStage, procStep, if_neg hempty]
  | arrived =>
      rw [runStage]
      split
      · next harrived =>
          refine .last ch hctor (r := .goto .decode) ?_ (After.goto_ne _)
          rw [Pos.ofStage, procStep, if_pos harrived]
      · next harrived =>
          refine .last ch hctor (r := .goto .write) ?_ (After.goto_ne _)
          rw [Pos.ofStage, procStep, if_neg harrived]
  | decode => exact decode_run hctor c
  | clearUpdated => exact .last ch hctor (r := .goto .decode) rfl (After.goto_ne _)
  | write =>
      rw [runStage]
      cases hfront : c.frontCopy with
      | none =>
          refine .last ch hctor (r := .goto .timeouts) ?_ (After.goto_ne _)
          rw [Pos.ofStage, procStep, hfront]
      | some m =>
          simp only
          split
          · next helapsed =>
              refine .last ch hctor (r := .goto .timeouts) ?_ (After.goto_ne _)
              rw [Pos.ofStage, procStep, hfront]
              simp only [if_pos helapsed]
          · next helapsed =>
              refine .last ch hctor (r := .goto (.popping m)) ?_ (After.goto_ne _)
              rw [Pos.ofStage, procStep, hfront]
              simp only [if_neg helapsed]
  | popping m => exact .last ch hctor (r := .goto .write) rfl (After.goto_ne _)
  | timeouts =>
      rw [runStage]
      split
      · next henabled =>
          -- the same for the table of timeouts
          have hs : c.mesTimeouts.toList ≠ [] → c.userSession = true := by
            intro hsome
            by_contra hno
            exact hsome (by rw [hinv.timeouts (Bool.eq_false_iff.mpr hno)]; rfl)
          rw [proceed_fst, next_proceed]
          refine .step ch hctor ?_ (processTimeoutsLoop_run hctor c.mesTimeouts.toList 0 hs)
          rw [Pos.ofStage, procStep, if_pos henabled]
      · next henabled =>
          refine .last ch hctor (r := .goto .errors) ?_ (After.goto_ne _)
          rw [Pos.ofStage, procStep, if_neg henabled]
  | errors =>
      rw [runStage, proceed_fst, next_proceed]
      cases hout : (andThen c.mtHandleHandshakeError mtHandleChError).1 with
      | none =>
          refine .last ch hctor (r := .goto .afterProcessed) ?_ (After.goto_ne _)
          rw [Pos.ofStage, procStep, hout]
          rfl
      | some e =>
          refine .last ch hctor (r := .threw) ?_ (by simp)
          rw [Pos.ofStage, procStep, hout]
          rfl
  | afterProcessed =>
      rw [runStage]
      split
      · next hs =>
          have htest : procStep conf ch false .afterProcessed c = (c, .goto (.call .callAfterProcessed)) := by
            rw [procStep, hs]
            rfl
          have hcall : procStep conf ch false (.call .callAfterProcessed) c
              = (c.log [.afterProcessed], afterHandler ch .returned) := by
            rw [procStep, useSession_of_session hs]
            rfl
          rw [callHandler, if_pos hs]
          refine .step ch hctor htest ?_
          rw [afterHandler] at hcall
          cases hout : ch.handler 0 with
          | none =>
              rw [hout] at hcall
              exact .last ch hctor hcall (by simp)
          | some e =>
              rw [hout] at hcall
              exact .last ch hctor hcall (by simp)
      · next hs =>
          refine .last ch hctor (r := .returned) ?_ (by simp)
          rw [Pos.ofStage, procStep, if_neg hs]

end Comm

/-! ## Systems -/

namespace SessionSystem

open Comm

variable {conf : Config B}

/-- A `System`, seen step by step. No thread is inside `send`. -/
def ofSystem (s : System B) : SessionSystem B := ⟨s.comm, s.proc.map Pos.ofStage, fun _ => none, false⟩

/-- The state is reached by a run in which the session factory returns an object or throws. -/
def ReachedFrom (conf : Config B) (s t : SessionSystem B) : Prop :=
  ∃ acts : List (Act B), (∀ a ∈ acts, FactoryReturnsOrThrows a) ∧ Machine.run (step conf) s acts = some t

/-- One step, then a run. -/
theorem ReachedFrom.cons {s s' t : SessionSystem B} {a : Act B} (hok : FactoryReturnsOrThrows a)
    (h : step conf s a = some s') (hrest : ReachedFrom conf s' t) : ReachedFrom conf s t := by
  obtain ⟨acts, hacts, hrun⟩ := hrest
  refine ⟨a :: acts, fun b hb => ?_, Machine.run_cons_eq_some.mpr ⟨s', h, hrun⟩⟩
  rcases List.mem_cons.mp hb with rfl | hb
  · exact hok
  · exact hacts b hb

theorem ReachedFrom.refl (s : SessionSystem B) : ReachedFrom conf s s :=
  ⟨[], fun _ h => absurd h List.not_mem_nil, rfl⟩

/-- Runs compose. -/
theorem ReachedFrom.trans {s t u : SessionSystem B} (h : ReachedFrom conf s t) (h' : ReachedFrom conf t u) :
    ReachedFrom conf s u := by
  obtain ⟨acts, hacts, hrun⟩ := h
  obtain ⟨acts', hacts', hrun'⟩ := h'
  refine ⟨acts ++ acts', fun a ha => ?_, by rw [Machine.run_append, hrun]; exact hrun'⟩
  rcases List.mem_append.mp ha with ha | ha
  · exact hacts a ha
  · exact hacts' a ha

/-- A run inside `mt_process` is a run of the system. -/
theorem reached_of_procRun {c c' : Comm B} {p : Pos B} {r : Option (Pos B)} (h : ProcRun conf c p c' r) :
    ReachedFrom conf ⟨c, some p, fun _ => none, false⟩ ⟨c', r, fun _ => none, false⟩ := by
  induction h with
  | last ch hctor h hused =>
      refine .cons (a := .proc ch false) hctor ?_ (.refl _)
      rw [SessionSystem.step]
      simp [h, hused]
  | step ch hctor h _ ih =>
      refine .cons (a := .proc ch false) hctor ?_ ih
      rw [SessionSystem.step]
      simp only [h]
      rfl

/-- A run of `send` is a run of the system. -/
theorem reached_of_sendRun (proc : Option (Pos B)) (t : Nat) {c c' : Comm B} {p : SendPos B}
    {r : After (SendPos B)} (h : SendRun conf c p c' r) :
    ReachedFrom conf ⟨c, proc, Function.update (fun _ => none) t (some p), false⟩
      ⟨c', proc, fun _ => none, false⟩ := by
  induction h with
  | @last c c' p r h hend =>
      have hleft : Function.update (Function.update (fun _ => none) t (some p)) t r.pos?
          = (fun _ => none : Nat → Option (SendPos B)) := by
        rw [Function.update_idem]
        rcases hend with rfl | rfl <;> exact Function.update_eq_self t _
      have hfine : (r == .failed) = false := by rcases hend with rfl | rfl <;> rfl
      refine .cons (a := .send t) trivial ?_ (.refl _)
      rw [step]
      simp only [Function.update_self, h, hleft, hfine, Bool.or_false]
  | @step c d c' p q r h _ ih =>
      refine .cons (a := .send t) trivial ?_ ih
      rw [SessionSystem.step]
      simp only [Function.update_self, h, Function.update_idem]
      rfl

/-- At the start of a stage `_sent_mes_mutex` is free. -/
theorem holdsSentMes_ofStage (proc : Option (Stage B)) : holdsSentMes (proc.map Pos.ofStage) = false := by
  rcases proc with _ | s
  · rfl
  · cases s <;> rfl

/-- **A step of a `System` is a run of steps.** -/
theorem reached_of_step {s s' : System B} {a : System.Act B} (hinv : s.comm.SessionInv)
    (hctor : ∀ ch, a = .stage ch → ch.ctor ≠ .null) (h : System.step conf s a = some s') :
    ReachedFrom conf (ofSystem s) (ofSystem s') := by
  cases a with
  | env e =>
      obtain ⟨c, hc, rfl⟩ := Option.map_eq_some_iff.mp h
      rcases envStep_cases hc with ⟨m, rfl, rfl⟩ | hsend
      · exact .cons (a := .beginSend 0 m false) trivial rfl
          (reached_of_sendRun _ 0 (prepareToWrite_run conf m s.comm))
      · have hadmits : admits (s.proc.map Pos.ofStage) e = true := by
          cases e with
          | send m => exact absurd rfl (hsend m)
          | writeDone i => rw [admits, holdsSentMes_ofStage]; rfl
          | _ => rfl
        refine .cons (a := .env e) trivial ?_ (.refl _)
        rw [step]
        exact (if_pos hadmits).trans (by rw [ofSystem, hc]; rfl)
  | enter =>
      rw [System.step] at h
      split at h
      · next hnone =>
          cases h
          refine .cons (a := .enter) trivial ?_ (.refl _)
          rw [step, ofSystem, hnone]
          rfl
      · cases h
  | stage ch =>
      rw [System.step] at h
      split at h
      · cases h
      · next st hst =>
          cases h
          rw [ofSystem, hst]
          exact reached_of_procRun (runStage_run (hctor ch rfl) hinv st)

/-- **Every run of a `System` is a run of steps** with the same communicator at its end. -/
theorem reached_of_run {id : CommId} {as : List (System.Act B)} {s : System B}
    (h : Machine.run (System.step conf) (System.init id) as = some s)
    (hctor : ∀ ch, .stage ch ∈ as → ch.ctor ≠ .null) :
    ReachedFrom conf (SessionSystem.init id) (ofSystem s) := by
  have hok : ∀ a ∈ as, ∀ ch, a = .stage ch → ch.ctor ≠ .null := by
    intro a ha ch heq
    subst heq
    exact hctor ch ha
  have hkept : s.Inv ∧ ReachedFrom conf (SessionSystem.init id) (ofSystem s) :=
    Machine.run_guarded_invariant
      (fun t : System B => t.Inv ∧ ReachedFrom conf (SessionSystem.init id) (ofSystem t))
      (fun _ _ _ hi hok hs => ⟨hi.1.step hs, hi.2.trans (reached_of_step hi.1.session hok hs)⟩)
      as _ _ ⟨.init id, .refl _⟩
      (Machine.guarded_of_mem (fun _ => hok)) h
  exact hkept.2

end SessionSystem

end Unicomm
