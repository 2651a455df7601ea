import Mathlib.Logic.Relation
import Unicomm.Comm.Process

/-!
# `Comm.Effects` — what a stage of `mt_process` can do to the communicator

Every stage is a sequence of **effects**, each the smallest change that keeps the communicator consistent: a
delivered reply leaves the table of timeouts together with the call of its handler, a sent message is
registered, removed and reported in one go. `runStage_effects` is the only place that looks into the code of
the stages; an invariant is then a case analysis over `Effect`.

The decomposition rests on `SessionInv`: a communicator without a session has nothing that could need one.
-/

namespace Unicomm

open Relation (ReflTransGen)

variable {B : Build}

namespace Comm

variable (conf : Config B) (ch : Choice B)

/-! ## Nothing is there before the session -/

/-- **Without a session there is nothing to process**: no message was sent, so none is on its way out and
    none waits for a reply. -/
structure SessionInv (c : Comm B) : Prop where
  queue    : c.userSession = false → c.prepearedMQueue = []
  out      : c.userSession = false → c.outBuffers = ∅
  sent     : c.userSession = false → c.sentMessages = []
  timeouts : c.userSession = false → c.mesTimeouts = ∅

/-! ## Effects -/

/-- What handling one completed write does before the handler is called: register the timeout if a reply is
    expected, and remove the entry. -/
def regSent (it : SentMessageInfo B) (sent : List (SentMessageInfo B)) (c : Comm B) : Comm B :=
  let c := if conf.timeoutsEnabled && conf.needReply it.name then
    c.regMessageTimeout conf ch.now it.mid it.name else c
  { c with sentMessages := sent }

/-- The smallest consistent changes the stages of `mt_process` are made of, the writing of a message apart. -/
inductive Effect : Comm B → Comm B → Prop where
  /-- The session was created and its connected handler called. -/
  | connected {c : Comm B} (hjc : c.justConnected = true) :
      Effect c (log { c with justConnected := false, isConnected := true, userSession := true }
        [.connected]).mtStartRead
  /-- The session constructor threw. -/
  | ctorThrew {c : Comm B} (hjc : c.justConnected = true) (hs : c.userSession = false) :
      Effect c (log { c with justConnected := false, isConnected := true } [.sessionCtorThrew]).mtStartRead
  /-- The session factory returned a null pointer. -/
  | nullSession {c : Comm B} (hjc : c.justConnected = true) (hs : c.userSession = false) :
      Effect c (mtStartRead { c with justConnected := false, isConnected := true })
  /-- A completed write was handled. -/
  | sent {c : Comm B} (hs : c.userSession = true) {it : SentMessageInfo B} {sent : List (SentMessageInfo B)}
      (hsent : c.sentMessages = it :: sent) :
      Effect c ((c.regSent conf ch it sent).log [.messageSent it.mid])
  /-- A raw message left the buffer. -/
  | taken {c : Comm B} (hs : c.userSession = true) :
      Effect c { c with inBuffer := (conf.messageDecoder.performDecode c.inBuffer).2 }
  /-- A message identifier was drawn for a possible reply. -/
  | drawn {c : Comm B} (hs : c.userSession = true) : Effect c c.newMid.2
  /-- A request was passed to its handler. -/
  | request {c : Comm B} (hs : c.userSession = true) {m : BinMessage B} (hm : m.ridExists = false) :
      Effect c (c.log [.messageArrived m])
  /-- A reply somebody waits for was passed to its handler. -/
  | reply {c : Comm B} (hs : c.userSession = true) {m : BinMessage B} (hm : m.ridExists = true)
      {req : MessageTimeoutInfo} (hreq : c.mesTimeouts[m.rid]? = some req)
      (hallowed : conf.isAllowedReply req.name m.name = true) :
      Effect c ((c.unregMessageTimeout m.rid).log [.messageArrived m])
  /-- A reply nobody waits for was thrown away. -/
  | discarded {c : Comm B} {m : BinMessage B} (hm : m.ridExists = true) (hreq : c.mesTimeouts[m.rid]? = none) :
      Effect c (c.log [.discarded m.rid])
  /-- An automatic reply was pushed. -/
  | pushed {c : Comm B} (hs : c.userSession = true) (m : PrepearedMessage B) :
      Effect c (c.pushPrepearedMessage m)
  /-- The flag of the incoming buffer was cleared. -/
  | clearUpdated {c : Comm B} : Effect c { c with inBufferUpdated := false }
  /-- A timeout elapsed and was reported. -/
  | timeout {c : Comm B} (hs : c.userSession = true) {mid : MessageId B} {info : MessageTimeoutInfo}
      (hreg : c.mesTimeouts[mid]? = some info) :
      Effect c ((c.unregMessageTimeout mid).log [.messageTimeout mid])
  /-- The handshake error was cleared, to be thrown. -/
  | handshakeError {c : Comm B} : Effect c (disconnect { c with handshakeError := 0 })
  /-- The channel errors were cleared, the one found to be thrown. -/
  | channelError {c : Comm B} : Effect c { c with readError := 0, writeError := 0 }
  /-- The after processed handler was called. -/
  | afterProcessed {c : Comm B} (hs : c.userSession = true) : Effect c (c.log [.afterProcessed])

/-- Any number of effects. -/
abbrev Effects : Comm B → Comm B → Prop := ReflTransGen (Effect conf ch)

/-! ## The stages are made of effects -/

variable {conf ch}

/-- `prepare_to_write` draws an identifier or not, then pushes or not. -/
theorem prepareToWrite_effects {c : Comm B} (hs : c.userSession = true) (m : BinMessage B) :
    Effects conf ch c (c.prepareToWrite conf m).comm := by
  have hdraw : Effects conf ch c (drawMid conf m c).2 := by
    rcases drawMid_snd with h | h
    · rw [h]
    · rw [h]; exact .single (.drawn hs)
  rcases prepareToWrite_cases conf m c with ⟨e, h, _⟩ | ⟨out, _, _, h⟩ <;> rw [h]
  · exact hdraw
  · exact hdraw.tail (.pushed (by rw [drawMid_userSession, hs]) _)

/-- The communicator `process_received` calls the handler on. -/
def offerMid (conf : Config B) (c : Comm B) : MessageId B × Comm B :=
  if conf.useUniqueMessageId then c.newMid else (undefinedMessageid, c)

theorem offerMid_userSession (c : Comm B) : (c.offerMid conf).2.userSession = c.userSession := by
  rw [offerMid]; split <;> rfl

theorem offerMid_effects {c : Comm B} (hs : c.userSession = true) : Effects conf ch c (c.offerMid conf).2 := by
  rw [offerMid]
  split
  · exact .single (.drawn hs)
  · exact .refl

/-- `process_received`, once the arrival itself is accounted for. -/
theorem processReceived_effects {c₀ c : Comm B} {m : BinMessage B} (hs : c.userSession = true)
    (harrive : Effects conf ch c₀ ((c.offerMid conf).2.log [.messageArrived m])) :
    Effects conf ch c₀ (processReceived conf ch m c).2 := by
  have hs' : (c.offerMid conf).2.userSession = true := by rw [offerMid_userSession, hs]
  rw [processReceived, ← offerMid]
  simp only [callHandler, if_pos hs']
  cases ch.handler 0 with
  | some e => exact harrive
  | none =>
      simp only [andThen]
      cases ch.reply (c.offerMid conf).1 with
      | none => exact harrive
      | some outm =>
          have hp := harrive.trans (prepareToWrite_effects
            (c := (c.offerMid conf).2.log [.messageArrived m]) hs' (makeReply conf (c.offerMid conf).1 m outm))
          simp only
          split <;> exact hp

/-- `process_incoming`. -/
theorem processIncoming_effects {c : Comm B} (hs : c.userSession = true) (m : BinMessage B) :
    Effects conf ch c (processIncoming conf ch m c).2 := by
  rw [processIncoming]
  by_cases hrid : m.ridExists = true
  · rw [if_pos hrid, processReply]
    split
    · next hnone => exact .single (.discarded hrid hnone)
    · next req hreq =>
        split
        · next hallowed =>
            -- the entry is erased first, but drawing the identifier does not depend on that
            have hcomm : ((c.unregMessageTimeout m.rid).offerMid conf).2
                = (c.offerMid conf).2.unregMessageTimeout m.rid := by
              rw [offerMid, offerMid]; split <;> rfl
            have hsame : (c.offerMid conf).2.mesTimeouts = c.mesTimeouts := by
              rw [offerMid]; split <;> rfl
            refine processReceived_effects (c := c.unregMessageTimeout m.rid) hs ?_
            rw [hcomm]
            exact (offerMid_effects hs).tail
              (.reply (by rw [offerMid_userSession, hs]) hrid (by rw [hsame, hreq]) hallowed)
        · exact .refl
  · have hreq : m.ridExists = false := Bool.eq_false_iff.mpr hrid
    rw [if_neg hrid]
    exact processReceived_effects hs
      ((offerMid_effects hs).tail (.request (by rw [offerMid_userSession, hs]) hreq))

theorem regSent_userSession (it : SentMessageInfo B) (sent : List (SentMessageInfo B)) (c : Comm B) :
    (c.regSent conf ch it sent).userSession = c.userSession := by
  rw [regSent]; split <;> rfl

/-- **One turn of the loop** of `mt_process_sent`: take the entry, call the handler, go on. -/
theorem mtProcessSentLoop_cons {c : Comm B} (hs : c.userSession = true) (i : Nat) (it : SentMessageInfo B)
    (sent : List (SentMessageInfo B)) :
    mtProcessSentLoop conf ch i (it :: sent) c
      = andThen (ch.handler i, (c.regSent conf ch it sent).log [.messageSent it.mid])
          (mtProcessSentLoop conf ch (i + 1) sent) := by
  have hs' : (c.regSent conf ch it sent).userSession = true := by rw [regSent_userSession, hs]
  rw [mtProcessSentLoop, ← regSent]
  simp only [callHandler, if_pos hs']

/-- The loop of `mt_process_sent`, over all of `_sent_messages`. -/
theorem mtProcessSentLoop_effects (sent : List (SentMessageInfo B)) (i : Nat) {c : Comm B}
    (hs : c.userSession = true) (hsent : c.sentMessages = sent) :
    Effects conf ch c (mtProcessSentLoop conf ch i sent c).2 := by
  induction sent generalizing i c with
  | nil => exact .refl
  | cons it sent ih =>
      have hs' : (c.regSent conf ch it sent).userSession = true := by rw [regSent_userSession, hs]
      have hone : Effects conf ch c ((c.regSent conf ch it sent).log [.messageSent it.mid]) :=
        .single (.sent hs hsent)
      rw [mtProcessSentLoop_cons hs]
      cases ch.handler i with
      | some e => exact hone
      | none   => exact hone.trans (ih (i + 1) hs' rfl)

/-- The loop of `process_timeouts`, over entries that are in the table and have different identifiers. -/
theorem processTimeoutsLoop_effects (its : List (MessageId B × MessageTimeoutInfo)) (i : Nat) {c : Comm B}
    (hs : c.userSession = true) (hreg : ∀ p ∈ its, c.mesTimeouts[p.1]? = some p.2)
    (hdistinct : its.Pairwise (fun a b => ¬ compare a.1 b.1 = .eq)) :
    Effects conf ch c (processTimeoutsLoop ch i its c).2 := by
  induction its generalizing i c with
  | nil => exact .refl
  | cons p its ih =>
      obtain ⟨mid, info⟩ := p
      obtain ⟨hne, hdistinct'⟩ := List.pairwise_cons.mp hdistinct
      have hreg' : ∀ p ∈ its, c.mesTimeouts[p.1]? = some p.2 :=
        fun p hp => hreg p (List.mem_cons_of_mem _ hp)
      rw [processTimeoutsLoop]
      split
      · have hone : Effects conf ch c ((c.unregMessageTimeout mid).log [.messageTimeout mid]) :=
          .single (.timeout hs (hreg _ List.mem_cons_self))
        have hs' : (c.unregMessageTimeout mid).userSession = true := hs
        simp only [callHandler, if_pos hs']
        cases ch.handler i with
        | some e => exact hone
        | none =>
            refine hone.trans (ih (i + 1) hs' (fun p hp => ?_) hdistinct')
            -- the entry just removed is none of those still to come
            change (c.mesTimeouts.erase mid)[p.1]? = some p.2
            rw [Std.ExtTreeMap.getElem?_erase, if_neg (hne p hp), hreg' p hp]
      · exact ih i hs hreg' hdistinct'

/-- `process_timeouts`. -/
theorem processTimeouts_effects {c : Comm B} (hs : c.userSession = true) :
    Effects conf ch c (processTimeouts ch c).2 :=
  processTimeoutsLoop_effects _ 0 hs
    (fun _ hp => Std.ExtTreeMap.mem_toList_iff_getElem?_eq_some.mp hp) Std.ExtTreeMap.distinct_keys_toList

/-- **How `handle_connected_success` ends**: with a session and its connected handler called, or without a
    session, whose constructor threw or gave a null pointer. -/
theorem handleConnectedSuccess_cases (c : Comm B) :
    (handleConnectedSuccess conf ch c).2
        = (log { c with isConnected := true, userSession := true } [.connected]).mtStartRead
      ∨ (c.userSession = false ∧ (handleConnectedSuccess conf ch c).2
          = (log { c with isConnected := true } [.sessionCtorThrew]).mtStartRead)
      ∨ (c.userSession = false ∧ (handleConnectedSuccess conf ch c).2
          = mtStartRead { c with isConnected := true }) := by
  rw [handleConnectedSuccess, createUserSession]
  by_cases hs : c.userSession = true
  · have hkeep : { c with isConnected := true, userSession := true } = { c with isConnected := true } := by
      rw [← hs]
    rw [hkeep]
    exact .inl (by simp only [if_pos hs, andThen, callHandler])
  · have hnone : c.userSession = false := Bool.eq_false_iff.mpr hs
    simp only [if_neg hs]
    split
    · exact .inl rfl
    · exact .inr (.inr ⟨hnone, rfl⟩)
    · exact .inr (.inl ⟨hnone, rfl⟩)
    · exact .inr (.inl ⟨hnone, rfl⟩)

/-- `handle_connected_success`, with the flag that announced the connection cleared. -/
theorem handleConnectedSuccess_effects {c : Comm B} (hjc : c.justConnected = true) :
    Effects conf ch c (handleConnectedSuccess conf ch { c with justConnected := false }).2 := by
  rcases @handleConnectedSuccess_cases B conf ch { c with justConnected := false } with h | ⟨hs, h⟩ | ⟨hs, h⟩ <;>
    rw [h]
  · exact .single (.connected hjc)
  · exact .single (.ctorThrew hjc hs)
  · exact .single (.nullSession hjc hs)

/-- Both channel errors are cleared, whichever of them is thrown. -/
theorem mtHandleChError_snd (c : Comm B) :
    c.mtHandleChError.2 = { c with readError := 0, writeError := 0 } := by
  rw [mtHandleChError]
  split
  · rfl
  · split <;> rfl

theorem mtProcessErrors_effects (c : Comm B) :
    Effects conf ch c (andThen c.mtHandleHandshakeError mtHandleChError).2 := by
  have hch : ∀ c' : Comm B, Effects conf ch c' c'.mtHandleChError.2 := by
    intro c'
    rw [mtHandleChError_snd]
    exact .single .channelError
  rw [mtHandleHandshakeError]
  split
  · exact .single .handshakeError
  · exact hch c

/-- `mt_perform_decode`. -/
theorem mtPerformDecode_effects (c : Comm B) : Effects conf ch c (mtPerformDecode conf c).2 := by
  rw [mtPerformDecode]
  split
  · next hs => exact .single (.taken hs)
  · exact .refl

theorem mtPerformDecode_userSession (c : Comm B) :
    (mtPerformDecode conf c).2.userSession = c.userSession := by
  rw [mtPerformDecode]; split <;> rfl

theorem proceed_fst (s : Next B) (r : Option Exc × Comm B) : (proceed s r).1 = r.2 := by
  obtain ⟨_ | _, c⟩ := r <;> rfl

/-- **Every stage but the writing of a message is made of effects.** -/
theorem runStage_effects {s : Stage B} {c : Comm B} (hinv : c.SessionInv) (hs : ∀ m, s ≠ .popping m) :
    Effects conf ch c (runStage conf ch s c).1 := by
  cases s with
  | connect =>
      rw [runStage]
      split
      · next hjc => rw [proceed_fst]; exact handleConnectedSuccess_effects hjc
      · exact .refl
  | sent =>
      rw [runStage]
      split
      · exact .refl
      · next hsent =>
          rw [proceed_fst]
          -- the loop over the sent messages starts with one, which no communicator without a session has
          cases hsess : c.userSession with
          | true  => exact mtProcessSentLoop_effects _ 0 hsess rfl
          | false => exact absurd (by rw [hinv.sent hsess]; rfl) hsent
  | arrived => rw [runStage]; split <;> exact .refl
  | decode =>
      rw [runStage]
      split
      · have hdec : Effects conf ch c (mtPerformDecode conf c).2 := mtPerformDecode_effects c
        have hsame : (mtPerformDecode conf c).2.userSession = c.userSession := mtPerformDecode_userSession c
        rcases hr : mtPerformDecode conf c with ⟨e | _ | m, c'⟩ <;> rw [hr] at hdec hsame
        · exact hdec
        · exact hdec
        · simp only [proceed_fst]
          cases hsess : c.userSession with
          | true  => exact hdec.trans (processIncoming_effects (by rw [hsame, hsess]) m)
          -- nothing is decoded without a session
          | false => rw [mtPerformDecode, if_neg (by rw [hsess]; decide)] at hr; cases hr
      · exact .refl
  | clearUpdated => exact .single .clearUpdated
  | write => rw [runStage]; split <;> [split; skip] <;> exact .refl
  | popping m => exact absurd rfl (hs m)
  | timeouts =>
      rw [runStage]
      split
      · rw [proceed_fst]
        cases hsess : c.userSession with
        | true  => exact processTimeouts_effects hsess
        | false => rw [processTimeouts, hinv.timeouts hsess]; exact .refl
      · exact .refl
  | errors => rw [runStage, proceed_fst]; exact mtProcessErrors_effects c
  | afterProcessed =>
      rw [runStage]
      split
      · next hsess =>
          rw [proceed_fst, callHandler, if_pos hsess]
          exact .single (.afterProcessed hsess)
      · exact .refl

theorem proceed_snd_ne {s s' : Next B} (r : Option Exc × Comm B) (hs : s ≠ s') (hs' : ∀ e, s' ≠ .raised e) :
    (proceed s r).2 ≠ s' := by
  obtain ⟨_ | e, c⟩ := r
  · exact hs
  · exact fun h => hs' e h.symm

/-- Only the writing loop copies a message, and it copies the front of the queue. -/
theorem runStage_goto_popping {s : Stage B} {c : Comm B} {m : PrepearedMessage B}
    (h : (runStage conf ch s c).2 = .goto (.popping m)) :
    s = .write ∧ (runStage conf ch s c).1 = c ∧ c.frontCopy = some m := by
  have hno : ∀ (s' : Stage B) (r : Option Exc × Comm B), s' ≠ .popping m →
      (proceed (.goto s') r).2 ≠ .goto (.popping m) := fun s' r hs' =>
    proceed_snd_ne r (fun he => hs' (Next.goto.inj he)) (fun e he => by cases he)
  -- the other stages go on to a place of their own or out of the function
  cases s with
  | connect =>
      rw [runStage] at h
      split at h
      · exact absurd h (hno _ _ (fun he => by cases he))
      · cases h
  | sent =>
      rw [runStage] at h
      split at h
      · cases h
      · exact absurd h (hno _ _ (fun he => by cases he))
  | arrived => rw [runStage] at h; split at h <;> cases h
  | decode =>
      rw [runStage] at h
      split at h
      · split at h
        · cases h
        · cases h
        · exact absurd h (hno _ _ (fun he => by cases he))
      · cases h
  | clearUpdated => cases h
  | write =>
      rw [runStage] at h ⊢
      split at h
      · next m' hm' =>
          rw [hm']
          split at h
          · cases h
          · next helapsed =>
              cases h
              exact ⟨rfl, by simp only [if_neg helapsed], rfl⟩
      · cases h
  | popping m' => cases h
  | timeouts =>
      rw [runStage] at h
      split at h
      · exact absurd h (hno _ _ (fun he => by cases he))
      · cases h
  | errors => rw [runStage] at h; exact absurd h (hno _ _ (fun he => by cases he))
  | afterProcessed =>
      rw [runStage] at h
      split at h
      · exact absurd h (proceed_snd_ne _ (fun he => by cases he) (fun e he => by cases he))
      · cases h

/-! ## Events that are not counted -/

section Uncounted

variable {β : Type} {f : Event B → Option β}

/-- Where one function follows another, neither of which records what `f` counts, nothing is counted. -/
theorem filterMap_andThen {r : Option Exc × Comm B} {k : Comm B → Option Exc × Comm B} {c : Comm B}
    (hr : r.2.history.filterMap f = c.history.filterMap f)
    (hk : ∀ d, (k d).2.history.filterMap f = d.history.filterMap f) :
    (andThen r k).2.history.filterMap f = c.history.filterMap f := by
  obtain ⟨_ | e, d⟩ := r
  · exact (hk d).trans hr
  · exact hr

theorem filterMap_callHandler {e : Event B} (he : f e = none) (outcome : Option Exc) (c : Comm B) :
    (c.callHandler e outcome).2.history.filterMap f = c.history.filterMap f := by
  unfold callHandler
  split
  · exact filterMap_event rfl he
  · rfl

theorem filterMap_handleConnectedSuccess (hconnected : f .connected = none) (hthrew : f .sessionCtorThrew = none)
    (c : Comm B) : (handleConnectedSuccess conf ch c).2.history.filterMap f = c.history.filterMap f := by
  rcases @handleConnectedSuccess_cases B conf ch c with h | ⟨-, h⟩ | ⟨-, h⟩ <;> rw [h]
  · exact filterMap_event rfl hconnected
  · exact filterMap_event rfl hthrew
  · rfl

theorem filterMap_mtProcessSentLoop (hregistered : ∀ mid, f (.registered mid) = none)
    (hsent : ∀ mid, f (.messageSent mid) = none) (sent : List (SentMessageInfo B)) (i : Nat) (c : Comm B) :
    (mtProcessSentLoop conf ch i sent c).2.history.filterMap f = c.history.filterMap f := by
  induction sent generalizing i c with
  | nil => rfl
  | cons it sent ih =>
      have hreg : (c.regSent conf ch it sent).history.filterMap f = c.history.filterMap f := by
        unfold regSent
        split
        · exact filterMap_event rfl (hregistered it.mid)
        · rfl
      rw [mtProcessSentLoop, ← regSent]
      exact filterMap_andThen ((filterMap_callHandler (hsent it.mid) _ _).trans hreg) (fun d => ih (i + 1) d)

theorem filterMap_processTimeoutsLoop (htimeout : ∀ mid, f (.messageTimeout mid) = none)
    (its : List (MessageId B × MessageTimeoutInfo)) (i : Nat) (c : Comm B) :
    (processTimeoutsLoop ch i its c).2.history.filterMap f = c.history.filterMap f := by
  induction its generalizing i c with
  | nil => rfl
  | cons it its ih =>
      obtain ⟨mid, info⟩ := it
      rw [processTimeoutsLoop]
      split
      · exact filterMap_andThen (filterMap_callHandler (htimeout mid) _ _) (fun d => ih (i + 1) d)
      · exact ih i c

theorem filterMap_prepareToWrite (hdrawn : ∀ mid, f (.drawn mid) = none) (hpushed : ∀ p, f (.pushed p) = none)
    (m : BinMessage B) (c : Comm B) :
    (c.prepareToWrite conf m).comm.history.filterMap f = c.history.filterMap f := by
  refine prepareToWrite_invariant (P := fun d => d.history.filterMap f = c.history.filterMap f) m rfl ?_ ?_
  · exact filterMap_event rfl (hdrawn c.newMid.1)
  · intro d p h
    exact (filterMap_event rfl (hpushed p)).trans h

/-- The identifier offered to a handler is drawn. -/
theorem filterMap_offerMid (hdrawn : ∀ mid, f (.drawn mid) = none) (c : Comm B) :
    (c.offerMid conf).2.history.filterMap f = c.history.filterMap f := by
  unfold offerMid
  split
  · exact filterMap_event rfl (hdrawn c.newMid.1)
  · rfl

theorem filterMap_processReceived (hdrawn : ∀ mid, f (.drawn mid) = none) (hpushed : ∀ p, f (.pushed p) = none)
    {m : BinMessage B} (harrived : f (.messageArrived m) = none) (c : Comm B) :
    (processReceived conf ch m c).2.history.filterMap f = c.history.filterMap f := by
  rw [processReceived, ← offerMid]
  refine filterMap_andThen ((filterMap_callHandler harrived _ _).trans (filterMap_offerMid hdrawn c)) (fun d => ?_)
  cases ch.reply (c.offerMid conf).1 with
  | none => rfl
  | some outm =>
      have hsent : (d.prepareToWrite conf (makeReply conf (c.offerMid conf).1 m outm)).comm.history.filterMap f
          = d.history.filterMap f := filterMap_prepareToWrite hdrawn hpushed _ d
      simp only
      split <;> exact hsent

theorem filterMap_processIncoming (hdrawn : ∀ mid, f (.drawn mid) = none) (hpushed : ∀ p, f (.pushed p) = none)
    (hdiscarded : ∀ rid, f (.discarded rid) = none) {m : BinMessage B} (harrived : f (.messageArrived m) = none)
    (c : Comm B) : (processIncoming conf ch m c).2.history.filterMap f = c.history.filterMap f := by
  unfold processIncoming processReply
  split
  · split
    · exact filterMap_event rfl (hdiscarded m.rid)
    · split
      · exact filterMap_processReceived hdrawn hpushed harrived (c.unregMessageTimeout m.rid)
      · rfl
  · exact filterMap_processReceived hdrawn hpushed harrived c

/-- The events a stage can record. -/
def Stage.records : Stage B → Event B → Bool
  | .connect,        .connected        => true
  | .connect,        .sessionCtorThrew => true
  | .sent,           .registered _     => true
  | .sent,           .messageSent _    => true
  | .decode,         .drawn _          => true
  | .decode,         .pushed _         => true
  | .decode,         .messageArrived _ => true
  | .decode,         .discarded _      => true
  | .popping _,      .handed _         => true
  | .timeouts,       .messageTimeout _ => true
  | .afterProcessed, .afterProcessed   => true
  | _,               _                 => false

/-- **A stage records no other events.** -/
theorem filterMap_runStage {st : Stage B} (hf : ∀ e, st.records e = true → f e = none) (c : Comm B) :
    (runStage conf ch st c).1.history.filterMap f = c.history.filterMap f := by
  cases st with
  | connect =>
      rw [runStage]
      split
      · rw [proceed_fst]
        exact filterMap_handleConnectedSuccess (hf _ rfl) (hf _ rfl) { c with justConnected := false }
      · rfl
  | sent =>
      rw [runStage]
      split
      · rfl
      · rw [proceed_fst]
        exact filterMap_mtProcessSentLoop (fun _ => hf _ rfl) (fun _ => hf _ rfl) _ 0 c
  | arrived =>
      rw [runStage]
      split <;> rfl
  | decode =>
      rw [runStage]
      split
      -- the decoder changes the buffer and no history
      · have hsame : (mtPerformDecode conf c).2.history = c.history := by
          unfold mtPerformDecode
          split <;> rfl
        rcases hr : mtPerformDecode conf c with ⟨e | _ | m, d⟩ <;> rw [hr] at hsame
        · rw [← hsame]
        · rw [← hsame]
        · simp only [proceed_fst]
          rw [← hsame]
          exact filterMap_processIncoming (fun _ => hf _ rfl) (fun _ => hf _ rfl) (fun _ => hf _ rfl) (hf _ rfl) d
      · rfl
  | clearUpdated => rfl
  | write =>
      rw [runStage]
      split
      · split <;> rfl
      · rfl
  | popping m => exact filterMap_event (e := .handed m) rfl (hf _ rfl)
  | timeouts =>
      rw [runStage]
      split
      · rw [proceed_fst]
        exact filterMap_processTimeoutsLoop (fun _ => hf _ rfl) _ 0 c
      · rfl
  | errors =>
      rw [runStage, proceed_fst, mtHandleHandshakeError]
      split
      · show (disconnect { c with handshakeError := 0 }).history.filterMap f = c.history.filterMap f
        rw [disconnect_history]
      · show (mtHandleChError c).2.history.filterMap f = c.history.filterMap f
        rw [mtHandleChError_snd]
  | afterProcessed =>
      rw [runStage]
      split
      · rw [proceed_fst]
        exact filterMap_callHandler (hf _ rfl) _ c
      · rfl

end Uncounted

/-! ## Invariants along effects -/

/-- What happened stays in the history. -/
theorem Effect.history_prefix {c c' : Comm B} (he : Effect conf ch c c') : c.history <+: c'.history := by
  cases he with
  | @sent _ it _ =>
      rw [regSent]
      split
      · exact ⟨[.registered it.mid] ++ [.messageSent it.mid], (List.append_assoc ..).symm⟩
      · exact List.prefix_append ..
  | connected | ctorThrew | drawn | request | reply | discarded | pushed | timeout | afterProcessed =>
      exact List.prefix_append ..
  | nullSession | taken | clearUpdated | channelError => exact List.prefix_rfl
  | handshakeError => exact ⟨[], by rw [List.append_nil, disconnect_history]⟩

theorem Effects.history_prefix {c c' : Comm B} (h : Effects conf ch c c') : c.history <+: c'.history := by
  induction h with
  | refl => exact List.prefix_rfl
  | tail _ hlast ih => exact ih.trans hlast.history_prefix

/-- What every effect keeps, any number of effects keeps. -/
theorem Effects.invariant {inv : Comm B → Prop} (hstep : ∀ c c', Effect conf ch c c' → inv c → inv c')
    {c c' : Comm B} (h : Effects conf ch c c') (hc : inv c) : inv c' := by
  induction h with
  | refl => exact hc
  | tail _ hlast ih => exact hstep _ _ hlast ih

/-- Once there is a session, there always is one. -/
theorem Effect.userSession {c c' : Comm B} (he : Effect conf ch c c') (hs : c.userSession = true) :
    c'.userSession = true := by
  cases he with
  | connected => rfl
  | sent => rw [regSent]; split <;> exact hs
  | handshakeError => rw [disconnect_userSession]; exact hs
  | ctorThrew | nullSession | taken | drawn | request | reply | discarded | pushed | clearUpdated | timeout
  | channelError | afterProcessed => exact hs

/-- Whatever has a session satisfies the session invariant. -/
theorem SessionInv.of_session {c : Comm B} (h : c.userSession = true) : c.SessionInv := by
  have hno : c.userSession ≠ false := by rw [h]; decide
  exact ⟨fun h => absurd h hno, fun h => absurd h hno, fun h => absurd h hno, fun h => absurd h hno⟩

theorem SessionInv.effect {c c' : Comm B} (h : Effect conf ch c c') (hinv : c.SessionInv) : c'.SessionInv := by
  -- an effect that puts something anywhere has a session; the others put nothing anywhere
  cases h with
  | connected => exact .of_session rfl
  | sent hs _ => exact .of_session (by rw [log, regSent_userSession, hs])
  | taken hs | drawn hs | request hs | reply hs | pushed hs | timeout hs | afterProcessed hs =>
      exact .of_session hs
  | ctorThrew | nullSession | discarded | clearUpdated | channelError =>
      exact ⟨hinv.queue, hinv.out, hinv.sent, hinv.timeouts⟩
  | handshakeError =>
      rw [disconnect]
      split <;> exact ⟨hinv.queue, hinv.out, hinv.sent, hinv.timeouts⟩

end Comm

end Unicomm
