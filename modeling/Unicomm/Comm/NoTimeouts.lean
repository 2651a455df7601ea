import Unicomm.Comm.Replies

/-!
# `Comm.NoTimeouts` — what turning timeouts off does to replies

A reply is passed to its handler only if its request is in `_mes_timeouts`, and requests get in there only if
`timeouts_enabled`, a flag that is about tracking timeouts. Two runs over the same operations are compared, one
with the flag and one without. The run without it keeps the table empty (`table_opStep`), so it passes on the
requests and throws every reply away; the run with it passes on everything that was expected. So they agree exactly
when no reply comes in (`arrivals_eq_iff`).
-/

namespace Unicomm

variable {B : Build} {conf : Config B} {ch : Choice B}

/-- The message an event passed to the message arrived handler. -/
def Event.arrived? : Event B → Option (BinMessage B)
  | .messageArrived m => some m
  | _                 => none

/-- The identifier whose timeout an event reported. -/
def Event.timedOut? : Event B → Option (MessageId B)
  | .messageTimeout mid => some mid
  | _                   => none

namespace Comm

/-- The identifiers whose timeouts were reported, in order. -/
def timedOut (c : Comm B) : List (MessageId B) := c.history.filterMap Event.timedOut?

/-- The messages passed to the message arrived handler, in order. -/
def arrivals (c : Comm B) : List (BinMessage B) := c.history.filterMap Event.arrived?

/-- The message an operation brings in. -/
def Op.incoming? : Op B → Option (BinMessage B)
  | .incoming _ m => some m
  | _             => none

/-- The messages that come in, in order. -/
def incomings (ops : List (Op B)) : List (BinMessage B) := ops.filterMap Op.incoming?

/-- The same configuration with timeouts turned off. -/
def withoutTimeouts (conf : Config B) : Config B := { conf with timeoutsEnabled := false }

/-- **A reply that may be expected**: the completion of its request, one that needs a reply, was processed, it is
    allowed, and the request was not answered before. -/
def Expected (conf : Config B) (c : Comm B) (m : BinMessage B) : Prop :=
  ∃ r ∈ c.handed, r.id = m.rid ∧ conf.needReply r.name = true ∧ .messageSent r.id ∈ c.history
    ∧ conf.isAllowedReply r.name m.name = true ∧ ∀ e ∈ c.history, e.isReplyTo r.id = false

/-- Whether a message is passed on: a request always, a reply if its request waits for it. -/
def passes (conf : Config B) (c : Comm B) (m : BinMessage B) : Bool :=
  !m.ridExists || (c.mesTimeouts[m.rid]?).any (fun req => conf.isAllowedReply req.name m.name)

variable {c c' : Comm B}

/-! ## What one operation passes on -/

/-- `process_received` passes its message on, whatever becomes of the reply to it. -/
theorem arrivals_processReceived (hs : c.userSession = true) (m : BinMessage B) :
    (processReceived conf ch m c).2.arrivals = c.arrivals ++ [m] := by
  have hs' : (c.offerMid conf).2.userSession = true := by rw [offerMid_userSession, hs]
  have hoffer : (c.offerMid conf).2.arrivals = c.arrivals := filterMap_offerMid (fun _ => rfl) c
  have hcalled : ((c.offerMid conf).2.log [.messageArrived m]).arrivals = c.arrivals ++ [m] := by
    rw [← hoffer]
    exact List.filterMap_append
  rw [processReceived, ← offerMid]
  simp only [callHandler, if_pos hs']
  cases ch.handler 0 with
  | some e => exact hcalled
  | none =>
      simp only [andThen]
      cases ch.reply (c.offerMid conf).1 with
      | none => exact hcalled
      | some outm =>
          rw [← hcalled]
          simp only
          split <;> exact filterMap_prepareToWrite (fun _ => rfl) (fun _ => rfl) _ _

theorem arrivals_processIncoming (hs : c.userSession = true) (m : BinMessage B) :
    (processIncoming conf ch m c).2.arrivals = c.arrivals ++ (if passes conf c m then [m] else []) := by
  unfold processIncoming passes
  cases hrid : m.ridExists with
  | false =>
      rw [if_neg Bool.false_ne_true]
      exact arrivals_processReceived hs m
  | true =>
      rw [if_pos rfl, processReply]
      cases hreq : c.mesTimeouts[m.rid]? with
      | none =>
          have hdiscard : (c.log [.discarded m.rid]).arrivals = c.arrivals :=
            filterMap_event (e := .discarded m.rid) rfl rfl
          simp [hdiscard]
      | some req =>
          cases hallowed : conf.isAllowedReply req.name m.name with
          | true =>
              have hunreg : (c.unregMessageTimeout m.rid).userSession = true := hs
              have hpassed : (processReceived conf ch m (c.unregMessageTimeout m.rid)).2.arrivals = c.arrivals ++ [m] :=
                arrivals_processReceived hunreg m
              simp [hallowed, hpassed]
          | false => simp [hallowed]

/-- **An operation passes on the message it brings in**, if it passes, and no other. -/
theorem arrivals_opStep {op : Op B} (h : c.opStep conf op = some c') :
    c'.arrivals = c.arrivals ++ op.incoming?.toList.filter (passes conf c) := by
  cases op with
  | env e =>
      have hsame : c'.arrivals = c.arrivals := by
        rcases envStep_cases h with ⟨m, rfl, rfl⟩ | he
        · exact filterMap_prepareToWrite (fun _ => rfl) (fun _ => rfl) m c
        · exact (envStep_frame h he).2.2.2.filterMap_eq (fun _ => rfl)
      simp [hsame, Op.incoming?]
  | startWrite =>
      obtain ⟨m, -, rfl⟩ := Option.map_eq_some_iff.mp h
      have hsame : (c.popAndWrite m).arrivals = c.arrivals := filterMap_event (e := .handed m) rfl rfl
      simp [hsame, Op.incoming?]
  | connect ch =>
      have hsame : (runStage conf ch .connect c).1.arrivals = c.arrivals := by
        rw [runStage]
        split
        · rw [proceed_fst]
          exact filterMap_handleConnectedSuccess rfl rfl { c with justConnected := false }
        · rfl
      cases h
      simp [hsame, Op.incoming?]
  | processSent ch =>
      have hsame : (runStage conf ch .sent c).1.arrivals = c.arrivals := by
        rw [runStage]
        split
        · rfl
        · rw [proceed_fst]
          exact filterMap_mtProcessSentLoop (fun _ => rfl) (fun _ => rfl) _ 0 c
      cases h
      simp [hsame, Op.incoming?]
  | incoming ch m =>
      rw [opStep] at h
      split at h
      · next hs =>
          cases h
          rw [arrivals_processIncoming hs]
          cases hpass : passes conf c m <;> simp [Op.incoming?, hpass]
      · cases h
  | timeouts ch =>
      have hsame : (processTimeouts ch c).2.arrivals = c.arrivals :=
        filterMap_processTimeoutsLoop (fun _ => rfl) _ 0 c
      cases h
      simp [hsame, Op.incoming?]

/-! ## Without timeouts -/

/-- **Nothing enters the table** when timeouts are turned off. -/
theorem table_effect (hoff : conf.timeoutsEnabled = false) (he : Effect conf ch c c') (h : c.mesTimeouts = ∅) :
    c'.mesTimeouts = ∅ := by
  cases he with
  | sent =>
      rw [regSent, if_neg (by simp [hoff])]
      exact h
  | reply _ _ hreq =>
      rw [h] at hreq
      cases hreq.symm.trans Std.ExtTreeMap.getElem?_empty
  | timeout _ hreg =>
      rw [h] at hreg
      cases hreg.symm.trans Std.ExtTreeMap.getElem?_empty
  | handshakeError => rw [disconnect_mesTimeouts]; exact h
  | connected | ctorThrew | nullSession | taken | drawn | request | discarded | pushed | clearUpdated
  | channelError | afterProcessed => exact h

/-- The table stays empty. -/
theorem table_opStep (hoff : conf.timeoutsEnabled = false) {op : Op B} (hinv : c.SessionInv)
    (h : c.opStep conf op = some c') (hc : c.mesTimeouts = ∅) : c'.mesTimeouts = ∅ := by
  rcases opStep_cases hinv h with ⟨e, rfl, he⟩ | ⟨m, -, rfl⟩ | ⟨ch, heff⟩
  · rcases envStep_cases he with ⟨m, rfl, rfl⟩ | hno
    · exact prepareToWrite_invariant (P := fun d => d.mesTimeouts = ∅) m hc hc (fun _ _ hd => hd)
    · rw [(envStep_frame he hno).2.2.1]
      exact hc
  · exact hc
  · exact heff.invariant (fun _ _ he hi => table_effect hoff he hi) hc

/-- **Without timeouts only requests are passed on.** -/
theorem arrivals_off (hoff : conf.timeoutsEnabled = false) (id : CommId) (ops : List (Op B))
    (hrun : Machine.run (opStep conf) (Comm.create id) ops = some c) :
    c.arrivals = (incomings ops).filter (fun m => !m.ridExists) := by
  have hall : Machine.Guarded (opStep conf) (fun _ _ => True) (Comm.create id) ops :=
    Machine.guarded_of_mem (fun _ _ _ => trivial)
  have hempty : c.SessionInv ∧ c.Tracked ∧ c.mesTimeouts = ∅
      ∧ c.arrivals = (incomings ([] ++ ops)).filter (fun m => !m.ridExists) := by
    refine Machine.run_past_invariant (fun past c => c.SessionInv ∧ c.Tracked ∧ c.mesTimeouts = ∅
      ∧ c.arrivals = (incomings past).filter (fun m => !m.ridExists)) (fun past c op c' hi _ hs => ?_) ops [] _ c
      ⟨.create id, .create id, rfl, rfl⟩ hall hrun
    obtain ⟨hinv, htrack, htable, harrivals⟩ := hi
    obtain ⟨hinv', htrack'⟩ := htrack.opStep hinv hs
    refine ⟨hinv', htrack', table_opStep hoff hinv hs htable, ?_⟩
    -- with an empty table a message passes exactly when it is a request
    have hpasses : passes conf c = fun m => !m.ridExists := by
      funext m
      simp [passes, htable]
    rw [arrivals_opStep hs, harrivals, hpasses, incomings, incomings, List.filterMap_append, List.filter_append]
    congr 1
  exact hempty.2.2.2

/-! ## With timeouts -/

/-- What happened stays in the history. -/
theorem history_opStep {op : Op B} (hinv : c.SessionInv) (h : c.opStep conf op = some c') :
    c.history <+: c'.history := by
  rcases opStep_cases hinv h with ⟨e, rfl, he⟩ | ⟨m, -, rfl⟩ | ⟨ch, heff⟩
  · rcases envStep_cases he with ⟨m, rfl, rfl⟩ | hno
    · refine prepareToWrite_invariant (P := fun d => c.history <+: d.history) m List.prefix_rfl ?_ ?_
      · exact List.prefix_append c.history [.drawn c.newMid.1]
      · intro d p hd
        exact hd.trans (List.prefix_append d.history [.pushed p])
    · obtain ⟨-, -, -, mids, hh⟩ := envStep_frame he hno
      exact ⟨_, hh.symm⟩
  · exact List.prefix_append _ _
  · exact heff.history_prefix

/-- Every operation keeps the account. -/
theorem Accounted.opStep {op : Op B} (hinv : c.SessionInv) (h : c.Accounted conf) (hs : c.opStep conf op = some c') :
    c'.Accounted conf := by
  rcases opStep_cases hinv hs with ⟨e, rfl, he⟩ | ⟨m, hm, rfl⟩ | ⟨ch, heff⟩
  · exact h.envStep he
  · exact h.popAndWrite hm
  · exact heff.invariant (fun _ _ he hi => hi.effect he) h

/-- **An expected reply passes**, as long as no timeout was reported. -/
theorem Expected.passes (hto : conf.timeoutsEnabled = true) (hacc : c.Accounted conf) (hids : c.UniqueIds)
    (hno : c.timedOut = []) {m : BinMessage B} (h : Expected conf c m) :
    passes conf c m = true := by
  obtain ⟨r, hr, hrid, hneed, hsent, hallowed, hanswered⟩ := h
  have hopen : ∀ e ∈ c.history, e.settles r.id = false := by
    intro e he
    cases e with
    | messageTimeout mid =>
        have hmem : mid ∈ c.timedOut := List.mem_filterMap.mpr ⟨_, he, rfl⟩
        rw [hno] at hmem
        exact absurd hmem List.not_mem_nil
    | messageArrived m' => simpa [Event.settles, Event.isTimeoutOf] using hanswered _ he
    | drawn | pushed | handed | writeFailed | registered | discarded | sessionCtorThrew | connected | messageSent
    | error | afterProcessed | disconnected => rfl
  have hentry := hacc.getElem?_eq hto hids hr hneed hopen
  rw [if_pos hsent] at hentry
  obtain ⟨info, hinfo, hname⟩ := hentry
  unfold Comm.passes
  rw [← hrid, hinfo, Option.any_some, hname, hallowed, Bool.or_true]

/-- What may come in: any request, and the replies that may be expected. -/
def MayArrive (conf : Config B) (c : Comm B) (op : Op B) : Prop :=
  ∀ m, op.incoming? = some m → m.ridExists = true → Expected conf c m

theorem UniqueIds.of_prefix (h : c.history <+: c'.history) (hids : c'.UniqueIds) : c.UniqueIds := by
  obtain ⟨es, hes⟩ := h
  unfold UniqueIds pushes at hids ⊢
  rw [← hes, List.filterMap_append, List.map_append] at hids
  exact (List.nodup_append.mp hids).1

instance (conf : Config B) (c : Comm B) (m : BinMessage B) : Decidable (Expected conf c m) :=
  inferInstanceAs (Decidable (∃ r ∈ c.handed, _))

instance (conf : Config B) (c : Comm B) (op : Op B) : Decidable (MayArrive conf c op) :=
  match h : op.incoming? with
  | none   => isTrue (fun m hm => by rw [h] at hm; cases hm)
  | some m => decidable_of_iff (m.ridExists = true → Expected conf c m)
      ⟨fun hexp m' hm' => by rw [h] at hm'; cases hm'; exact hexp, fun hmay => hmay m h⟩

/-- **With timeouts every message that comes in is passed on.** -/
theorem arrivals_on (hto : conf.timeoutsEnabled = true) (id : CommId) (ops : List (Op B))
    (hrun : Machine.run (opStep conf) (Comm.create id) ops = some c)
    (hexpected : Machine.Guarded (opStep conf) (MayArrive conf) (Comm.create id) ops) (hids : c.UniqueIds)
    (hno : c.timedOut = []) : c.arrivals = incomings ops := by
  have hall : c.SessionInv ∧ c.Tracked ∧ c.Accounted conf ∧ (c.UniqueIds → c.timedOut = [] →
      c.arrivals = incomings ([] ++ ops)) := by
    refine Machine.run_past_invariant (fun past c => c.SessionInv ∧ c.Tracked ∧ c.Accounted conf
      ∧ (c.UniqueIds → c.timedOut = [] → c.arrivals = incomings past))
      (fun past c op c' hi hok hs => ?_) ops [] _ c ⟨.create id, .create id, .create conf id, fun _ _ => rfl⟩
      hexpected hrun
    obtain ⟨hinv, htrack, hacc, harrivals⟩ := hi
    obtain ⟨hinv', htrack'⟩ := htrack.opStep hinv hs
    refine ⟨hinv', htrack', hacc.opStep hinv hs, ?_⟩
    intro hids' hno'
    have hprefix := history_opStep hinv hs
    have hids := hids'.of_prefix hprefix
    have hno : c.timedOut = [] := List.prefix_nil.mp (hno' ▸ hprefix.filterMap Event.timedOut?)
    have hpass : ∀ m ∈ op.incoming?.toList, passes conf c m = true := by
      intro m hm
      cases hrid : m.ridExists with
      | false => simp [passes, hrid]
      | true  => exact (hok m (Option.mem_toList.mp hm) hrid).passes hto hacc hids hno
    rw [arrivals_opStep hs, harrivals hids hno, List.filter_eq_self.mpr hpass, incomings, incomings,
      List.filterMap_append]
    cases hop : op.incoming? <;> simp [hop]
  exact hall.2.2.2 hids hno

/-- **When turning timeouts off changes nothing for the handler.** Two communicators whose configurations differ only
    in `timeouts_enabled` go through the same operations, in which every reply that comes in is expected, under unique
    identifiers, and no timeout is reported. They pass the same messages to the message arrived handler if and only if
    no reply comes in. -/
theorem arrivals_eq_iff (conf : Config B) (id : CommId) (ops : List (Op B)) (on off : Comm B)
    (hto : conf.timeoutsEnabled = true)
    (hon : Machine.run (opStep conf) (Comm.create id) ops = some on)
    (hoff : Machine.run (opStep (withoutTimeouts conf)) (Comm.create id) ops = some off)
    (hexpected : Machine.Guarded (opStep conf) (MayArrive conf) (Comm.create id) ops) (hids : on.UniqueIds)
    (hno : on.timedOut = []) :
    on.arrivals = off.arrivals ↔ ∀ m ∈ incomings ops, m.ridExists = false := by
  have hpassed : off.arrivals = (incomings ops).filter (fun m => !m.ridExists) := arrivals_off rfl id ops hoff
  rw [arrivals_on hto id ops hon hexpected hids hno, hpassed, eq_comm, List.filter_eq_self]
  exact forall₂_congr (fun m _ => by simp)

/-- A request is sent under the identifier 5 and its completion processed; the peer's own request comes in. -/
def asking : List (Op .lp64) :=
  [.env .connectSuccess, .connect .plain, .env (.send ⟨[0x61], 5, 0, 0, []⟩), .startWrite, .env (.writeSome 0 13),
    .env (.writeDone 0), .processSent .plain, .incoming .plain ⟨[0x63], 9, 0, 0, []⟩]

/-- Both communicators pass the peer's request on. -/
theorem arrivals_eq_iff_asking : ∃ on off : Comm .lp64,
    Machine.run (opStep Config.asking) (Comm.create 1) asking = some on
      ∧ Machine.run (opStep (withoutTimeouts Config.asking)) (Comm.create 1) asking = some off
      ∧ (on.arrivals = off.arrivals ↔ ∀ m ∈ incomings asking, m.ridExists = false) :=
  ⟨_, _, rfl, rfl, arrivals_eq_iff Config.asking 1 asking _ _ rfl rfl rfl (by decide +kernel) (by decide +kernel)
    (by decide +kernel)⟩

/-- **Turning timeouts off turns replies off**: the answer to the request that was sent is passed on with timeouts,
    and thrown away without. -/
theorem replies_turned_off : ¬ ∀ (conf : Config .lp64) (id : CommId) (ops : List (Op .lp64)) (on off : Comm .lp64),
    conf.timeoutsEnabled = true → conf.useUniqueMessageId = true →
    Machine.run (opStep conf) (Comm.create id) ops = some on →
    Machine.run (opStep (withoutTimeouts conf)) (Comm.create id) ops = some off →
    Machine.Guarded (opStep conf) (MayArrive conf) (Comm.create id) ops → on.UniqueIds → on.timedOut = [] →
    on.arrivals = off.arrivals := by
  intro hclaim
  have heq := hclaim Config.asking 1 (asking ++ [.incoming .plain ⟨[0x62], 0, 5, 0, []⟩]) _ _ rfl rfl rfl rfl
    (by decide +kernel) (by decide +kernel) (by decide +kernel)
  exact absurd heq (by decide +kernel)

end Comm

end Unicomm
