import Unicomm.Comm.System

/-!
# `Comm.Own` — no function of a communicator looks at the dispatcher's records

The `catch` blocks of the dispatcher tell the session of an error or of the end of its connection, and the history of
the communicator records it. `own` takes these records out. Every function of the communicator is **blind** to them:
it does the same to `c.own` as to `c`, up to the records. So a communicator inside the dispatcher behaves as one that
runs alone.
-/

namespace Unicomm

variable {B : Build} {β : Type}

/-- Recorded by the communicator itself, not by a `catch` block of the dispatcher. -/
def Event.own : Event B → Bool
  | .error | .disconnected => false
  | _                      => true

namespace Comm

/-- The communicator without the records of the dispatcher. -/
def own (c : Comm B) : Comm B := { c with history := c.history.filter Event.own }

/-- The function does the same whatever the dispatcher recorded; `after` takes the records out of its result. -/
def Blind (after : β → β) (f : Comm B → β) : Prop := ∀ c, f c.own = after (f c)

/-- A result and a communicator, without the records. -/
abbrev ownSnd (r : β × Comm B) : β × Comm B := (r.1, r.2.own)

/-- A communicator and where its thread goes on, without the records. -/
abbrev ownFst (r : Comm B × β) : Comm B × β := (r.1.own, r.2)

theorem own_log {es : List (Event B)} (h : ∀ e ∈ es, e.own = true) (c : Comm B) : c.own.log es = (c.log es).own := by
  unfold own log
  rw [List.filter_append, List.filter_eq_self.mpr h]

/-- The records themselves are not seen. -/
theorem own_log_of_not {es : List (Event B)} (h : ∀ e ∈ es, e.own = false) (c : Comm B) : (c.log es).own = c.own := by
  have hnone : es.filter Event.own = [] := by
    rw [List.filter_eq_nil_iff]
    intro e he
    rw [h e he]
    decide
  unfold own log
  rw [List.filter_append, hnone, List.append_nil]

/-- Nor does anything count them that counts other events. -/
theorem filterMap_own {f : Event B → Option β} (hf : ∀ e, e.own = false → f e = none) (c : Comm B) :
    c.own.history.filterMap f = c.history.filterMap f := by
  have hskip : ∀ es : List (Event B), (es.filter Event.own).filterMap f = es.filterMap f := by
    intro es
    induction es with
    | nil => rfl
    | cons e es ih =>
        cases he : e.own with
        | true  => rw [List.filter_cons_of_pos he, List.filterMap_cons, List.filterMap_cons, ih]
        | false => rw [List.filter_cons_of_neg (by rw [he]; decide), List.filterMap_cons_none (hf e he), ih]
  exact hskip c.history

/-! ## How blind functions are put together -/

namespace Blind

variable {after : β → β} {f g : Comm B → β}

/-- A branch on what is not the history. -/
theorem ite {p : Comm B → Prop} [∀ c, Decidable (p c)] (hp : ∀ c, p c.own ↔ p c) (hf : Blind after f)
    (hg : Blind after g) : Blind after (fun c => if p c then f c else g c) := by
  intro c
  by_cases h : p c
  · simp only [if_pos h, if_pos ((hp c).mpr h)]
    exact hf c
  · simp only [if_neg h, if_neg (fun hno => h ((hp c).mp hno))]
    exact hg c

/-- One function after another. -/
theorem comp {h : Comm B → Comm B} (hf : Blind after f) (hh : Blind own h) : Blind after (fun c => f (h c)) := by
  intro c
  simp only [hh c]
  exact hf (h c)

/-- One event is recorded. -/
theorem log {e : Event B} (he : e.own = true) : Blind own (fun c : Comm B => c.log [e]) :=
  fun c => own_log (fun x hx => by rw [List.mem_singleton.mp hx]; exact he) c

variable {f k : Comm B → Option Exc × Comm B}

theorem andThen (hf : Blind ownSnd f) (hk : Blind ownSnd k) : Blind ownSnd (fun c => Comm.andThen (f c) k) := by
  intro c
  simp only [hf c]
  obtain ⟨o, d⟩ := f c
  cases o with
  | some e => rfl
  | none   => exact hk d

theorem proceed (hf : Blind ownSnd f) (s : Next B) :
    Blind ownFst (fun c => Comm.proceed s (f c)) := by
  intro c
  simp only [hf c]
  obtain ⟨o, d⟩ := f c
  cases o <;> rfl

theorem callHandler {e : Event B} (he : e.own = true) (outcome : Option Exc) :
    Blind ownSnd (Comm.callHandler e outcome) :=
  .ite (p := fun c => c.userSession = true) (fun _ => .rfl)
    (fun c => congrArg (Prod.mk outcome) (log he c)) (fun _ => rfl)

end Blind

variable {conf : Config B} {ch : Choice B}

/-! ## Sending -/

theorem newMid_own : Blind ownSnd (newMid (B := B)) := by
  intro c
  exact congrArg (Prod.mk _) (Blind.log rfl { c with mesid := _ })

theorem drawMid_own (m : BinMessage B) : Blind ownSnd (drawMid conf m) := by
  unfold drawMid
  intro c
  split
  · exact newMid_own c
  · rfl

theorem pushPrepearedMessage_own (m : PrepearedMessage B) : Blind own (pushPrepearedMessage m) :=
  fun c => Blind.log rfl { c with prepearedMQueue := _ }

/-- A send, its result and the message it stamps. -/
theorem prepareToWrite_own (m : BinMessage B) :
    Blind (fun p => { p with comm := p.comm.own }) (fun c => c.prepareToWrite conf m) := by
  intro c
  have hdraw : drawMid conf m c.own = ownSnd (drawMid conf m c) := drawMid_own m c
  have hstamped : stamped conf m c.own = stamped conf m c := by
    unfold stamped
    rw [hdraw]
  unfold prepareToWrite
  simp only [hdraw, hstamped]
  by_cases hs : (drawMid conf m c).2.userSession = true
  · have hs' : (drawMid conf m c).2.own.userSession = true := hs
    rw [if_pos hs, if_pos hs']
    cases conf.messageEncoder.performEncode (stamped conf m c) with
    | error e => rfl
    | ok out  => exact congrArg (Prepared.mk _ _) (pushPrepearedMessage_own _ _)
  · have hs' : ¬ (drawMid conf m c).2.own.userSession = true := hs
    rw [if_neg hs, if_neg hs']
    rfl

/-! ## The stages -/

namespace Blind

theorem disconnect : Blind own (Comm.disconnect (B := B)) :=
  ite (p := fun c => c.socket.isOpen = true) (fun _ => .rfl) (fun _ => rfl) (fun _ => rfl)

theorem createUserSession (ctor : CtorOutcome) : Blind ownSnd (Comm.createUserSession conf ctor) := by
  refine ite (p := fun c => c.userSession = true) (fun _ => .rfl) (fun _ => rfl) ?_
  cases callSessionFactory conf ctor with
  | session | null => exact fun c => rfl
  | throwsStd | throwsUnknown => exact fun c => congrArg (Prod.mk _) (log rfl c)

theorem handleConnectedSuccess : Blind ownSnd (Comm.handleConnectedSuccess conf ch) := by
  intro c
  have hsession : Blind ownSnd (Comm.createUserSession conf ch.ctor) := createUserSession ch.ctor
  have h := hsession.andThen (callHandler (e := .connected) rfl (ch.handler 0)) { c with isConnected := true }
  exact congrArg (fun r : Option Exc × Comm B => (r.1, r.2.mtStartRead)) h

theorem mtProcessSentLoop (sent : List (SentMessageInfo B)) (i : Nat) :
    Blind ownSnd (Comm.mtProcessSentLoop conf ch i sent) := by
  induction sent generalizing i with
  | nil => exact fun c => rfl
  | cons it sent ih =>
      have hreg : Blind own (fun c => if conf.timeoutsEnabled && conf.needReply it.name then
          c.regMessageTimeout conf ch.now it.mid it.name else c) :=
        ite (fun _ => .rfl) (fun c => log rfl { c with mesTimeouts := _ }) (fun _ => rfl)
      have hpop : Blind own (fun c : Comm B => { c with sentMessages := sent }) := fun _ => rfl
      exact (((callHandler (e := .messageSent it.mid) rfl (ch.handler i)).andThen (ih (i + 1))).comp hpop).comp hreg

theorem processReceived (m : BinMessage B) : Blind ownSnd (Comm.processReceived conf ch m) := by
  have hcall := callHandler (B := B) (e := .messageArrived m) rfl (ch.handler 0)
  have hsend : ∀ mid outm (c : Comm B), c.own.prepareToWrite conf (makeReply conf mid m outm)
      = { c.prepareToWrite conf (makeReply conf mid m outm) with
          comm := (c.prepareToWrite conf (makeReply conf mid m outm)).comm.own } := fun mid outm c =>
    prepareToWrite_own (makeReply conf mid m outm) c
  intro c
  unfold Comm.processReceived
  by_cases hu : conf.useUniqueMessageId = true
  · simp only [if_pos hu, newMid_own c]
    refine (hcall.andThen (fun d => ?_)) _
    cases ch.reply c.newMid.1 with
    | none => rfl
    | some outm =>
        simp only [hsend]
        cases (d.prepareToWrite conf (makeReply conf c.newMid.1 m outm)).result <;> rfl
  · simp only [if_neg hu]
    refine (hcall.andThen (fun d => ?_)) _
    cases ch.reply undefinedMessageid with
    | none => rfl
    | some outm =>
        simp only [hsend]
        cases (d.prepareToWrite conf (makeReply conf undefinedMessageid m outm)).result <;> rfl

theorem processReply (m : BinMessage B) : Blind ownSnd (Comm.processReply conf ch m) := by
  intro c
  have hsame : c.own.mesTimeouts = c.mesTimeouts := rfl
  unfold Comm.processReply
  rw [hsame]
  cases c.mesTimeouts[m.rid]? with
  | none     => exact congrArg (Prod.mk none) (log rfl c)
  | some req =>
      by_cases hreq : conf.isAllowedReply req.name m.name = true
      · simp only [if_pos hreq]
        exact processReceived m (c.unregMessageTimeout m.rid)
      · simp only [if_neg hreq]

theorem processIncoming (m : BinMessage B) : Blind ownSnd (Comm.processIncoming conf ch m) :=
  ite (fun _ => .rfl) (processReply m) (processReceived m)

theorem mtPerformDecode : Blind ownSnd (Comm.mtPerformDecode conf) :=
  ite (p := fun c => c.userSession = true) (fun _ => .rfl) (fun _ => rfl) (fun _ => rfl)

theorem processTimeoutsLoop (its : List (MessageId B × MessageTimeoutInfo)) (i : Nat) :
    Blind ownSnd (Comm.processTimeoutsLoop ch i its) := by
  induction its generalizing i with
  | nil => exact fun c => rfl
  | cons it its ih =>
      have hunreg : Blind own (unregMessageTimeout it.1 (B := B)) := fun _ => rfl
      have hcall := (callHandler (e := .messageTimeout it.1) rfl (ch.handler i)).andThen (ih (i + 1))
      exact ite (fun _ => .rfl) (hcall.comp hunreg) (ih i)

theorem mtHandleHandshakeError : Blind ownSnd (Comm.mtHandleHandshakeError (B := B)) := by
  refine ite (p := fun c => c.handshakeError ≠ 0) (fun _ => .rfl) (fun c => ?_) (fun _ => rfl)
  exact congrArg (Prod.mk _) (disconnect { c with handshakeError := 0 })

theorem mtHandleChError : Blind ownSnd (Comm.mtHandleChError (B := B)) :=
  ite (p := fun c => (if c.readError ≠ 0 then c.readError else c.writeError) ≠ 0) (fun _ => .rfl) (fun _ => rfl)
    (fun _ => rfl)

/-- **No stage of `mt_process` sees the records of the dispatcher.** -/
theorem runStage (st : Stage B) : Blind ownFst (Comm.runStage conf ch st) := by
  -- each stage tests fields that are no records, and goes on to functions that are blind
  cases st with
  | connect =>
      refine ite (p := fun c => c.justConnected = true) (fun _ => .rfl) ?_ (fun _ => rfl)
      exact (handleConnectedSuccess.proceed _).comp (fun _ => rfl)
  | sent =>
      refine ite (p := fun c => c.sentMessages.isEmpty = true) (fun _ => .rfl) (fun _ => rfl) (fun c => ?_)
      exact (mtProcessSentLoop c.sentMessages 0).proceed _ c
  | arrived =>
      exact ite (p := fun c => (!c.inBuffer.isEmpty && (c.inBufferUpdated && c.userSession)) = true) (fun _ => .rfl)
        (fun _ => rfl) (fun _ => rfl)
  | decode =>
      refine ite (p := fun c => (c.inBufferUpdated && !ch.elapsed) = true) (fun _ => .rfl) (fun c => ?_) (fun _ => rfl)
      rw [mtPerformDecode c]
      obtain ⟨r, d⟩ := Comm.mtPerformDecode conf c
      rcases r with e | _ | m
      · rfl
      · rfl
      · exact (processIncoming m).proceed _ d
  | clearUpdated => exact fun _ => rfl
  | write =>
      intro c
      have hsame : c.own.frontCopy = c.frontCopy := rfl
      unfold Comm.runStage
      simp only [hsame]
      cases c.frontCopy with
      | none   => rfl
      | some m => cases ch.elapsed <;> rfl
  | popping m => exact fun c => congrArg (Prod.mk · _) (log rfl { c with
      prepearedMQueue := _, internalMid := _, outBuffers := _, socket := _ })
  | timeouts =>
      exact ite (fun _ => .rfl) (fun c => (processTimeoutsLoop c.mesTimeouts.toList 0).proceed _ c) (fun _ => rfl)
  | errors => exact (mtHandleHandshakeError.andThen mtHandleChError).proceed _
  | afterProcessed =>
      exact ite (p := fun c => c.userSession = true) (fun _ => .rfl)
        ((callHandler (e := .afterProcessed) rfl (ch.handler 0)).proceed _) (fun _ => rfl)

/-! ## The environment -/

theorem mtAsioWriteHandler (error : Nat) (intMid : MessageId B) : Blind own (Comm.mtAsioWriteHandler error intMid) := by
  intro c
  have hfailed : ∀ e ∈ (c.outBuffers[intMid]?.map (fun m => Event.writeFailed m.id)).toList, e.own = true := by
    intro e he
    obtain ⟨m, -, rfl⟩ := Option.map_eq_some_iff.mp (Option.mem_toList.mp he)
    rfl
  by_cases herror : error ≠ 0
  · have h := own_log hfailed { c with writeError := error }
    unfold Comm.mtAsioWriteHandler
    simp only [if_pos herror]
    exact congrArg (fun d : Comm B => { d with outBuffers := d.outBuffers.erase intMid }) h
  · have hsame : c.own.outBuffers = c.outBuffers := rfl
    unfold Comm.mtAsioWriteHandler mtRegSentMessage
    simp only [if_neg herror, hsame]
    cases c.outBuffers[intMid]? <;> rfl

/-- What a step does with a write whose handler is still to run. -/
theorem onPending {i : Nat} {f : AsyncWrite B → Comm B → Option (Comm B)} (hf : ∀ w, Blind (Option.map own) (f w)) :
    Blind (Option.map own) (fun c => match c.pendingWrite i with | some w => f w c | none => none) := by
  intro c
  have hsame : c.own.pendingWrite i = c.pendingWrite i := rfl
  simp only [hsame]
  cases c.pendingWrite i with
  | none   => rfl
  | some w => exact hf w c

/-- **No step of the environment does.** -/
theorem envStep (e : EnvAct B) : Blind (Option.map own) (fun c => c.envStep conf e) := by
  cases e with
  | send m => exact fun c => congrArg (fun p : Prepared B => some p.comm) (prepareToWrite_own m c)
  | disconnect => exact fun c => congrArg some (disconnect c)
  | connectSuccess | handshake =>
      exact ite (p := fun c => c.connectPending = true) (fun _ => .rfl) (fun _ => rfl) (fun _ => rfl)
  | readAppend | readFail => exact ite (fun _ => .rfl) (fun _ => rfl) (fun _ => rfl)
  | readUpdated =>
      exact ite (p := fun c => c.inReadHandler = true) (fun _ => .rfl) (fun _ => rfl) (fun _ => rfl)
  | writeSome i n =>
      exact onPending (fun w => ite (fun _ => .rfl) (fun _ => rfl) (fun _ => rfl))
  | writeDone i =>
      refine onPending (fun w => ite (fun _ => .rfl) (fun c => ?_) (fun _ => rfl))
      exact congrArg some (mtAsioWriteHandler 0 w.intMid (c.setWrite i _))
  | writeFail i error =>
      refine onPending (fun w => ite (fun _ => .rfl) (fun c => ?_) (fun _ => rfl))
      exact congrArg some (mtAsioWriteHandler error w.intMid (c.setWrite i _))

end Blind

end Comm

end Unicomm
