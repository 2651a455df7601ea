import Unicomm.Facade.Header
import Unicomm.Comm.Replies
import Unicomm.Comm.SentReports

/-!
# `Comm.Identity` — one identifier from the send to its notification

An identifier is written into the message, the bytes, the prepared message, the out buffers, `_sent_messages` and
the table of timeouts. `OneIdentifier` says that it is the same one in all of them, `PairedWrites` that each write
and its notification have the same. Up to the queue this is a fact
about one call (`send_queued`, `reply_queued`); from there on it is one about runs. The messages that stages push
are looked at directly (`PushesEncoded.runStage`), because `Effect` does not say where a pushed message comes from;
the rest is read off the accounts of the writes and of the table.
-/

namespace Unicomm

variable {B : Build} {conf : Config B} {ch : Choice B}

/-- A prepared message whose bytes carry its identifier. -/
def PrepearedMessage.Encoded (p : PrepearedMessage B) : Prop := ∃ rid, Carries p.outBuffer p.id rid

/-- The identifier in the bytes of an encoded message. -/
def wireId (buffer : Str) : Option (MessageId B) :=
  (wireHeader B buffer).map (fun h => h.id.getD undefinedMessageid)

theorem PrepearedMessage.Encoded.wireId_eq {p : PrepearedMessage B} (h : p.Encoded) :
    wireId p.outBuffer = some p.id := by
  obtain ⟨rid, header, hheader, hid, -⟩ := h
  unfold wireId
  rw [hheader, Option.map_some, hid]

namespace Comm

variable {c c' : Comm B}

/-! ## From the message to the queue -/

/-- One message was pushed into the queue, under the identifier `mid`, which its bytes carry, together with the
    identifier `rid` of the message it answers. -/
def Queued (c c' : Comm B) (mid rid : MessageId B) : Prop :=
  ∃ p : PrepearedMessage B, c'.prepearedMQueue = PriorityQueue.push PrepearedMessage.priority p c.prepearedMQueue
    ∧ c'.pushes = c.pushes ++ [p] ∧ p.id = mid ∧ Carries p.outBuffer mid rid

theorem drawMid_same (m : BinMessage B) (c : Comm B) :
    (drawMid conf m c).2.prepearedMQueue = c.prepearedMQueue ∧ (drawMid conf m c).2.pushes = c.pushes := by
  have hsame : SameOutgoing c (drawMid conf m c).2 := drawMid_sameOutgoing m c
  exact ⟨hsame.2.2, hsame.1⟩

/-- **A send that succeeds** returns the identifier it leaves in the message, in the queue and in the bytes. -/
theorem send_queued (henc : conf.messageEncoder = binMessageEncoder) {m : BinMessage B} {mid : MessageId B}
    (h : (c.prepareToWrite conf m).result = .ok mid) :
    (c.prepareToWrite conf m).message.id = mid ∧ Queued c (c.prepareToWrite conf m).comm mid m.rid := by
  rcases prepareToWrite_cases conf m c with ⟨e, hp, -⟩ | ⟨out, -, hout, hp⟩
  · rw [hp] at h
    cases h
  · rw [hp] at h ⊢
    cases h
    rw [henc] at hout
    obtain ⟨hqueue, hpushes⟩ : _ ∧ (drawMid conf m c).2.pushes = c.pushes := drawMid_same m c
    refine ⟨rfl, ⟨(drawMid conf m c).1, m.name, sendPriority conf m, out⟩, ?_, ?_, rfl,
      carries_performEncode hout⟩
    · show PriorityQueue.push PrepearedMessage.priority _ (drawMid conf m c).2.prepearedMQueue = _
      rw [hqueue]
    · rw [pushPrepearedMessage_pushes, hpushes]

/-- The identifier of a reply: its own, or the one the handler was offered. -/
def replyMid (conf : Config B) (offered : MessageId B) (outm : BinMessage B) : MessageId B :=
  if conf.useUniqueMessageId && !outm.idExists then offered else outm.id

/-- No identifier is drawn for a reply: it has its own, or got the one that was offered. -/
theorem drawMid_makeReply (m outm : BinMessage B) (c d : Comm B) :
    drawMid conf (makeReply conf (c.offerMid conf).1 m outm) d = (replyMid conf (c.offerMid conf).1 outm, d) := by
  unfold drawMid makeReply replyMid
  cases hunique : conf.useUniqueMessageId with
  | false => simp
  | true =>
      cases hex : outm.idExists with
      | true =>
          have hown : BinMessage.idExists { outm with rid := m.id } = true := hex
          simp [hown]
      | false =>
          have hoffered : (c.offerMid conf).1 ≠ undefinedMessageid := by
            unfold offerMid
            rw [if_pos hunique]
            exact newMid_ne c
          have hown : BinMessage.idExists { outm with id := (c.offerMid conf).1, rid := m.id } = true := by
            simpa [BinMessage.idExists] using hoffered
          simp [hown]

/-- **An automatic reply that succeeds** is queued under its own identifier, or the one its handler was offered, and
    its bytes say which message it answers. -/
theorem reply_queued (henc : conf.messageEncoder = binMessageEncoder) {m outm : BinMessage B}
    (h : (processReceived conf ch m c).1 = none) (hreply : ch.reply (c.offerMid conf).1 = some outm) :
    Queued c (processReceived conf ch m c).2 (replyMid conf (c.offerMid conf).1 outm) m.id := by
  have hoffer : (c.offerMid conf).2.prepearedMQueue = c.prepearedMQueue ∧ (c.offerMid conf).2.pushes = c.pushes := by
    refine ⟨?_, filterMap_offerMid (fun _ => rfl) c⟩
    unfold offerMid
    split <;> rfl
  rw [processReceived, ← offerMid] at h ⊢
  unfold callHandler at h ⊢
  by_cases hs : (c.offerMid conf).2.userSession = true
  · rw [if_pos hs] at h ⊢
    cases hhandler : ch.handler 0 with
    | some e =>
        rw [hhandler] at h
        cases h
    | none =>
        rw [hhandler] at h
        simp only [andThen, hreply] at h ⊢
        cases hresult : (((c.offerMid conf).2.log [.messageArrived m]).prepareToWrite conf
            (makeReply conf (c.offerMid conf).1 m outm)).result with
        | error e =>
            rw [hresult] at h
            cases h
        | ok mid =>
            -- the reply is sent like any other message, and no identifier is drawn for it
            obtain ⟨hmid, p, hqueue, hpushes, hid, hcarries⟩ := send_queued henc hresult
            have hown : replyMid conf (c.offerMid conf).1 outm = mid := by
              rw [prepareToWrite_message, stamped, drawMid_makeReply] at hmid
              exact hmid
            refine ⟨p, ?_, ?_, by rw [hown, hid], by rw [hown]; exact hcarries⟩
            · show _ = PriorityQueue.push _ p c.prepearedMQueue
              rw [← hoffer.1]
              exact hqueue
            · show _ = c.pushes ++ [p]
              rw [← hoffer.2]
              refine hpushes.trans ?_
              rw [pushes_log]
              simp [Event.pushed?]
  · rw [if_neg hs] at h
    cases h

/-! ## What the stages push -/

/-- Every message pushed so far carries its identifier in its bytes. -/
def PushesEncoded (c : Comm B) : Prop := ∀ p ∈ c.pushes, p.Encoded

theorem PushesEncoded.congr (h : c.PushesEncoded) (hpushes : c'.pushes = c.pushes) : c'.PushesEncoded := by
  unfold PushesEncoded
  rw [hpushes]
  exact h

theorem PushesEncoded.queued (h : c.PushesEncoded) {mid rid : MessageId B} (hq : Queued c c' mid rid) :
    c'.PushesEncoded := by
  obtain ⟨p, -, hpushes, hid, hcarries⟩ := hq
  intro x hx
  rw [hpushes, List.mem_append, List.mem_singleton] at hx
  rcases hx with hx | rfl
  · exact h x hx
  · exact ⟨rid, by rw [hid]; exact hcarries⟩

/-- A send pushes an encoded message, or nothing. -/
theorem PushesEncoded.send (henc : conf.messageEncoder = binMessageEncoder) (h : c.PushesEncoded)
    (m : BinMessage B) : (c.prepareToWrite conf m).comm.PushesEncoded := by
  cases hresult : (c.prepareToWrite conf m).result with
  | ok mid  => exact h.queued (send_queued henc hresult).2
  | error e =>
      rcases prepareToWrite_cases conf m c with ⟨e', hp, -⟩ | ⟨out, -, -, hp⟩
      · rw [hp]
        exact h.congr (drawMid_same m c).2
      · rw [hp] at hresult
        cases hresult

/-- Incoming messages push at most a reply. -/
theorem PushesEncoded.processReceived (henc : conf.messageEncoder = binMessageEncoder) (h : c.PushesEncoded)
    (m : BinMessage B) : (Comm.processReceived conf ch m c).2.PushesEncoded := by
  have hoffer : (c.offerMid conf).2.pushes = c.pushes := filterMap_offerMid (fun _ => rfl) c
  rw [Comm.processReceived, ← offerMid]
  have hcalled : ((c.offerMid conf).2.callHandler (.messageArrived m) (ch.handler 0)).2.PushesEncoded :=
    h.congr ((filterMap_callHandler rfl _ _).trans hoffer)
  rcases hcall : (c.offerMid conf).2.callHandler (.messageArrived m) (ch.handler 0) with ⟨_ | e, d⟩
  · rw [hcall] at hcalled
    simp only [andThen]
    cases ch.reply (c.offerMid conf).1 with
    | none => exact hcalled
    | some outm =>
        have hsent := hcalled.send henc (makeReply conf (c.offerMid conf).1 m outm)
        simp only
        split <;> exact hsent
  · rw [hcall] at hcalled
    exact hcalled

theorem PushesEncoded.processIncoming (henc : conf.messageEncoder = binMessageEncoder) (h : c.PushesEncoded)
    (m : BinMessage B) : (Comm.processIncoming conf ch m c).2.PushesEncoded := by
  unfold Comm.processIncoming processReply
  split
  · split
    · exact h.congr (filterMap_event (e := .discarded m.rid) rfl rfl)
    · split
      · have hunreg : (c.unregMessageTimeout m.rid).PushesEncoded := h
        exact hunreg.processReceived henc m
      · exact h
  · exact h.processReceived henc m

/-- **Every stage** pushes encoded messages only: replies, when it decodes, and nothing otherwise. -/
theorem PushesEncoded.runStage (henc : conf.messageEncoder = binMessageEncoder) (h : c.PushesEncoded) (st : Stage B) :
    (Comm.runStage conf ch st c).1.PushesEncoded := by
  cases st with
  | connect =>
      rw [Comm.runStage]
      split
      · rw [proceed_fst]
        exact h.congr (filterMap_handleConnectedSuccess rfl rfl { c with justConnected := false })
      · exact h
  | sent =>
      rw [Comm.runStage]
      split
      · exact h
      · rw [proceed_fst]
        exact h.congr (filterMap_mtProcessSentLoop (fun _ => rfl) (fun _ => rfl) _ 0 c)
  | arrived =>
      rw [Comm.runStage]
      split <;> exact h
  | write =>
      rw [Comm.runStage]
      split
      · split <;> exact h
      · exact h
  | decode =>
      rw [Comm.runStage]
      split
      · have hdec : (mtPerformDecode conf c).2.PushesEncoded := by
          unfold mtPerformDecode
          split <;> exact h
        -- only a decoded message can lead to a reply
        rcases hr : mtPerformDecode conf c with ⟨e | _ | m, d⟩ <;> rw [hr] at hdec
        · exact hdec
        · exact hdec
        · simp only [proceed_fst]
          exact hdec.processIncoming henc m
      · exact h
  | clearUpdated => exact h
  | popping m => exact h.congr (filterMap_event (e := .handed m) rfl rfl)
  | timeouts =>
      rw [Comm.runStage]
      split
      · rw [proceed_fst]
        exact h.congr (filterMap_processTimeoutsLoop (fun _ => rfl) _ 0 c)
      · exact h
  | errors =>
      rw [Comm.runStage, proceed_fst, mtHandleHandshakeError]
      split
      · show (disconnect { c with handshakeError := 0 }).PushesEncoded
        exact h.congr (by rw [pushes, disconnect_history, pushes])
      · show (mtHandleChError c).2.PushesEncoded
        rw [mtHandleChError_snd]
        exact h
  | afterProcessed =>
      rw [Comm.runStage]
      split
      · rw [proceed_fst]
        exact h.congr (filterMap_callHandler rfl _ c)
      · exact h

/-! ## The table of timeouts -/

/-- **A registration belongs to the notification that follows it**: the message sent handler is called next, with
    the same identifier. -/
def RegisteredSent (history : List (Event B)) : Prop :=
  ∀ before mid after, history = before ++ .registered mid :: after → ∃ rest, after = .messageSent mid :: rest

theorem RegisteredSent.append {h es : List (Event B)} (hh : RegisteredSent h) (hes : RegisteredSent es) :
    RegisteredSent (h ++ es) := by
  intro before mid after heq
  rcases List.append_eq_append_iff.mp heq with ⟨pre, -, hpre⟩ | ⟨post, hpost, hsplit⟩
  · exact hes pre mid after hpre
  · cases post with
    | nil => exact hes [] mid after hsplit.symm
    | cons e post =>
        obtain ⟨rfl, rfl⟩ := List.cons.inj hsplit
        obtain ⟨rest, rfl⟩ := hh before mid post hpost
        exact ⟨rest ++ es, rfl⟩

theorem registeredSent_of_notMem {es : List (Event B)} (hno : ∀ mid, .registered mid ∉ es) : RegisteredSent es := by
  rintro before mid after rfl
  exact absurd (List.mem_append_right _ List.mem_cons_self) (hno mid)

/-- What happens next keeps it, as long as it registers nothing. -/
theorem RegisteredSent.extend {h h' : List (Event B)} (hh : RegisteredSent h) (es : List (Event B)) (heq : h' = h ++ es)
    (hno : ∀ mid, .registered mid ∉ es) : RegisteredSent h' := by
  rw [heq]
  exact hh.append (registeredSent_of_notMem hno)

/-- A registration and its report. -/
theorem registeredSent_pair (mid : MessageId B) :
    RegisteredSent [Event.registered mid, .messageSent mid] := by
  intro before mid' after heq
  cases before with
  | nil =>
      obtain ⟨hmid, rfl⟩ := List.cons.inj heq
      cases hmid
      exact ⟨[], rfl⟩
  | cons e before =>
      cases before with
      | nil => cases (List.cons.inj (List.cons.inj heq).2).1
      | cons e' before =>
          have hnil := (List.cons.inj (List.cons.inj heq).2).2
          exact absurd hnil.symm (by simp)

/-- **Effects register what they report.** -/
theorem RegisteredSent.effect (he : Effect conf ch c c') (h : RegisteredSent c.history) :
    RegisteredSent c'.history := by
  cases he with
  | @sent _ it sent =>
      rw [regSent]
      split
      · have happ := h.append (registeredSent_pair it.mid)
        rwa [List.append_cons] at happ
      · exact h.extend [.messageSent it.mid] rfl (by simp)
  | connected => exact h.extend [.connected] rfl (by simp)
  | ctorThrew => exact h.extend [.sessionCtorThrew] rfl (by simp)
  | drawn => exact h.extend [.drawn c.newMid.1] rfl (by simp)
  | @request _ m => exact h.extend [.messageArrived m] rfl (by simp)
  | @reply _ m => exact h.extend [.messageArrived m] rfl (by simp)
  | @discarded m => exact h.extend [.discarded m.rid] rfl (by simp)
  | pushed _ m => exact h.extend [.pushed m] rfl (by simp)
  | @timeout _ mid => exact h.extend [.messageTimeout mid] rfl (by simp)
  | afterProcessed => exact h.extend [.afterProcessed] rfl (by simp)
  | nullSession | taken | clearUpdated | channelError => exact h
  | handshakeError => rwa [disconnect_history]

theorem RegisteredSent.effects (he : Effects conf ch c c') (h : RegisteredSent c.history) :
    RegisteredSent c'.history := by
  induction he with
  | refl            => exact h
  | tail _ hlast ih => exact ih.effect hlast

/-- The environment registers nothing. -/
theorem RegisteredSent.envStep {e : EnvAct B} (h : RegisteredSent c.history) (hstep : c.envStep conf e = some c') :
    RegisteredSent c'.history := by
  rcases envStep_cases hstep with ⟨m, rfl, rfl⟩ | he
  · refine prepareToWrite_invariant (P := fun d => RegisteredSent d.history) m h ?_ (fun d p hd => ?_)
    · exact h.extend [.drawn c.newMid.1] rfl (by simp)
    · exact hd.extend [.pushed p] rfl (by simp)
  · obtain ⟨-, -, -, mids, hh⟩ := envStep_frame hstep he
    exact h.extend (mids.map .writeFailed) hh (by simp)

/-- **What is in the table was registered**, and so was what timed out. -/
theorem Tracked.registered (h : c.Tracked) :
    (∀ mid, c.mesTimeouts.contains mid = true → .registered mid ∈ c.history)
      ∧ ∀ before mid after, c.history = before ++ .messageTimeout mid :: after → .registered mid ∈ before := by
  have hmem : ∀ (mid : MessageId B) (es : List (Event B)), .register ∈ es.filterMap (Event.mark? mid) →
      .registered mid ∈ es := by
    intro mid es hin
    obtain ⟨e, he, hmark⟩ := List.mem_filterMap.mp hin
    unfold Event.mark? at hmark
    split at hmark
    · next hreg =>
        cases e <;> simp [Event.isRegistrationOf] at hreg
        rwa [← hreg]
    · split at hmark <;> cases hmark
  constructor
  · intro mid hin
    have hrun := h mid
    rw [hin] at hrun
    exact hmem mid c.history (Pending.register_of_pending hrun)
  · intro before mid after hsplit
    have hrun := h mid
    have hmark : (Event.messageTimeout mid).mark? mid = some .settle := by
      simp [Event.mark?, Event.isRegistrationOf, Event.settles, Event.isTimeoutOf]
    rw [marks, hsplit, List.filterMap_append, List.filterMap_cons_some hmark] at hrun
    exact hmem mid before (Pending.register_of_settle hrun)

/-! ## One identifier -/

/-- **One identifier from the queue to the notification.** -/
structure OneIdentifier (c : Comm B) : Prop where
  /-- The bytes of a queued message carry its identifier. -/
  queued     : ∀ p ∈ c.pushes, p.Encoded
  /-- What is written are queued messages. -/
  written    : ∀ p ∈ c.handed, p ∈ c.pushes
  /-- The identifiers of the notifications, and of those to come, are in the bytes of written messages. -/
  notified   : ∀ mid ∈ c.reports, ∃ p ∈ c.handed, wireId p.outBuffer = some mid
  /-- A timeout is registered under the identifier of the notification that follows. -/
  registered : RegisteredSent c.history
  /-- The table holds registered identifiers, and the timeouts reported are theirs. -/
  keys       : ∀ mid, c.mesTimeouts.contains mid = true → .registered mid ∈ c.history
  timeouts   : ∀ before mid after, c.history = before ++ .messageTimeout mid :: after → .registered mid ∈ before

/-- **Each write and its notification**, after the completions `done`. -/
structure PairedWrites (done : List (Nat × Bool)) (c : Comm B) : Prop where
  /-- Every message is written with its own bytes. -/
  written  : c.socket.writes.map AsyncWrite.buffer = c.handed.map PrepearedMessage.outBuffer
  /-- The identifiers of the notifications, and of those to come, are those in the bytes of the writes that
      succeeded. -/
  notified : (done.filter Prod.snd).map (fun p => (c.socket.writes[p.1]?).bind (fun w => wireId w.buffer))
               = (c.reported ++ c.sentMessages.map SentMessageInfo.mid).map some

/-- A notification was recorded. -/
theorem mem_reported {mid : MessageId B} (h : mid ∈ c.reported) : .messageSent mid ∈ c.history := by
  obtain ⟨e, he, hmid⟩ := List.mem_filterMap.mp h
  cases e <;> cases hmid
  exact he

/-- It is read off the table. -/
theorem OneIdentifier.of_accounted (hpushes : c.PushesEncoded) (hreg : RegisteredSent c.history) (htrack : c.Tracked)
    (hacc : c.Accounted conf) : c.OneIdentifier := by
  obtain ⟨hkeys, htimeouts⟩ := htrack.registered
  refine ⟨hpushes, hacc.handed, fun mid hmid => ?_, hreg, hkeys, htimeouts⟩
  obtain ⟨m, hm, rfl⟩ : ∃ m ∈ c.handed, m.id = mid := by
    rcases List.mem_append.mp hmid with hreported | hwaits
    · exact hacc.report mid (mem_reported hreported)
    · obtain ⟨it, hit, rfl⟩ := List.mem_map.mp hwaits
      obtain ⟨m, hm, hid, -⟩ := hacc.sent it hit
      exact ⟨m, hm, hid⟩
  exact ⟨m, hm, (hpushes m (hacc.handed m hm)).wireId_eq⟩

/-- These are read off the accounts of the writes. -/
theorem PairedWrites.of_accounts {done : List (Nat × Bool)} (hpushes : c.PushesEncoded) (hacc : c.Accounted conf)
    (hdone : c.Accounts done) : c.PairedWrites done := by
  refine ⟨hdone.buffers, ?_⟩
  rw [← reports, ← hdone.reports]
  refine List.map_congr_left fun p _ => ?_
  have hbuffer : (c.socket.writes[p.1]?).map AsyncWrite.buffer = (c.handed[p.1]?).map PrepearedMessage.outBuffer := by
    rw [← List.getElem?_map, ← List.getElem?_map, hdone.buffers]
  cases hm : c.handed[p.1]? with
  | none =>
      rw [hm, Option.map_none, Option.map_eq_none_iff] at hbuffer
      rw [hbuffer]
      rfl
  | some m =>
      rw [hm, Option.map_some] at hbuffer
      obtain ⟨w, hw, hwbuffer⟩ := Option.map_eq_some_iff.mp hbuffer
      have hencoded : m.Encoded := hpushes m (hacc.handed m (List.mem_of_getElem? hm))
      rw [hw, Option.bind_some, hwbuffer, hencoded.wireId_eq]
      rfl

end Comm

/-! ## Runs -/

namespace System

/-- Every reachable state, its history and its table. -/
theorem identity_run (henc : conf.messageEncoder = binMessageEncoder) {id : CommId} {as : List (Act B)}
    {s : System B} (h : Machine.run (System.step conf) (System.init id) as = some s) :
    s.comm.PushesEncoded ∧ Comm.RegisteredSent s.comm.history ∧ s.comm.Tracked := by
  refine (Machine.run_invariant (fun s => s.Inv ∧ s.comm.PushesEncoded ∧ Comm.RegisteredSent s.comm.history
    ∧ s.comm.Tracked) (fun s a s' hi hs => ?_) as _ _ ⟨.init id, ?_, ?_, .create id⟩ h).2
  -- the three invariants hold together, for the events of a stage are effects only when the session rules hold
  · obtain ⟨hinv, hpushes, hreg, htrack⟩ := hi
    refine ⟨hinv.step hs, ?_⟩
    have hencoded : s'.comm.PushesEncoded := by
      cases a with
      | env e =>
          obtain ⟨c, hc, rfl⟩ := Option.map_eq_some_iff.mp hs
          rcases Comm.envStep_cases hc with ⟨m, rfl, rfl⟩ | he
          · exact hpushes.send henc m
          · exact hpushes.congr (Comm.envStep_sameOutgoing hc he).1
      | enter =>
          rw [System.step] at hs
          split at hs <;> cases hs
          exact hpushes
      | stage ch =>
          rw [System.step] at hs
          split at hs <;> cases hs
          exact hpushes.runStage henc _
    refine ⟨hencoded, ?_⟩
    rcases step_cases conf hinv.session hs with ⟨e, c, -, hc, rfl⟩ | ⟨-, -, rfl⟩ | ⟨ch, m, -, -, rfl⟩
      | ⟨ch, st, -, -, -, heff, -⟩
    · exact ⟨hreg.envStep hc, htrack.envStep hc⟩
    · exact ⟨hreg, htrack⟩
    · exact ⟨hreg.extend [.handed m] rfl (by simp), htrack.unmarked (e := .handed m) rfl (fun _ => rfl) rfl⟩
    · exact ⟨hreg.effects heff, heff.invariant (fun _ _ he hi => hi.effect he) htrack⟩
  · exact fun p hp => absurd hp List.not_mem_nil
  · exact Comm.registeredSent_of_notMem (fun mid => List.not_mem_nil)

/-- **One identifier identifies a message everywhere.** With the binary encoder, for every communicator: a send
    that succeeds returns the identifier it leaves in the message, in the queue and in the bytes; so does an
    automatic reply, whose identifier is the one its handler was offered unless it has its own, and whose bytes hold
    the identifier of the message it answers. In every run the identifiers that are notified, registered and timed
    out are these; and as long as no two outstanding writes share an internal identifier, each write that succeeds is
    notified by the identifier in its bytes. -/
theorem one_identifier (conf : Config B) (henc : conf.messageEncoder = binMessageEncoder) :
    (∀ (c : Comm B) (m : BinMessage B) (mid : MessageId B), (c.prepareToWrite conf m).result = .ok mid →
        (c.prepareToWrite conf m).message.id = mid ∧ c.Queued (c.prepareToWrite conf m).comm mid m.rid)
      ∧ (∀ (ch : Choice B) (c : Comm B) (m outm : BinMessage B), (Comm.processReceived conf ch m c).1 = none →
        ch.reply (c.offerMid conf).1 = some outm →
        c.Queued (Comm.processReceived conf ch m c).2 (Comm.replyMid conf (c.offerMid conf).1 outm) m.id)
      ∧ ∀ (id : CommId) (as : List (Act B)) (s : System B),
        Machine.run (System.step conf) (System.init id) as = some s →
          s.comm.OneIdentifier
            ∧ (Machine.Guarded (System.step conf) FreshIntMid (System.init id) as →
                s.comm.PairedWrites (completions as)) := by
  refine ⟨fun c m mid h => Comm.send_queued henc h, fun ch c m outm h hr => Comm.reply_queued henc h hr, ?_⟩
  intro id as s h
  obtain ⟨hpushes, hreg, htrack⟩ := identity_run henc h
  exact ⟨.of_accounted hpushes hreg htrack (accounted h),
    fun hg => .of_accounts hpushes (accounted h) (accounts_run hg h)⟩

/-- A request is written, notified and registered, and its reply is read. -/
theorem one_identifier_asked : ∃ s,
    Machine.run (System.step Config.asking) (System.init 1) (asked ++ .env (.writeDone 0) :: replyRead) = some s
      ∧ s.comm.reported = [1]
      ∧ s.comm.OneIdentifier
      ∧ s.comm.PairedWrites (completions (asked ++ .env (.writeDone 0) :: replyRead)) := by
  obtain ⟨s, hrun, hreported⟩ : ∃ s, Machine.run (System.step Config.asking) (System.init 1)
      (asked ++ .env (.writeDone 0) :: replyRead) = some s ∧ s.comm.reported = [1] := ⟨_, rfl, by decide +kernel⟩
  obtain ⟨hone, hpaired⟩ := (one_identifier Config.asking rfl).2.2 1 (asked ++ .env (.writeDone 0) :: replyRead) s hrun
  exact ⟨s, hrun, hreported, hone, hpaired (by decide +kernel)⟩

end System

end Unicomm
