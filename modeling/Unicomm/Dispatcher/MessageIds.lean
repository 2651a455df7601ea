import Unicomm.Comm.Outcomes
import Unicomm.Dispatcher.Container

/-!
# `Dispatcher.MessageIds` — the identifiers of the messages on one connection

With `use_unique_message_id` every message that has no identifier gets the next value of the connection's
counter. `Numbered` ties the identifiers a communicator ever queued to its counter: they are different values
the counter has taken. It holds as long as every identifier queued **was drawn from that counter**.

`send_all` breaks this, because the identifier the first connection drew is written into the message object
the second one gets (`sendAll_repeats`). `ids_unique` is the guarantee for all other calls, one at a time.
-/

namespace Unicomm

variable {B : Build} {conf : Config B} {ch : Choice B}

/-- An identifier was drawn. -/
def Event.isDrawn : Event B → Bool
  | .drawn _ => true
  | _        => false

/-- A message object without an identifier, as callers pass it. -/
abbrev FreshMessage (B : Build) := { m : BinMessage B // m.id = undefinedMessageid }

namespace Comm

/-- How many identifiers were drawn. -/
def draws (c : Comm B) : Nat := c.history.countP Event.isDrawn

theorem draws_log (c : Comm B) (es : List (Event B)) : (c.log es).draws = c.draws + es.countP Event.isDrawn :=
  List.countP_append

/-- **The identifiers queued are different values of the counter**, unless it has wrapped. With `spare` the
    last value drawn is not among them. -/
def Numbered (spare : Bool) (c : Comm B) : Prop :=
  c.draws < 2 ^ (8 * B.sizeofULong) →
    c.mesid.toNat = c.draws ∧ (c.pushes.map PrepearedMessage.id).Nodup
      ∧ ∀ m ∈ c.pushes, 0 < m.id.toNat ∧ m.id.toNat + spare.toNat ≤ c.draws

theorem Numbered.create (id : CommId) : (Comm.create id : Comm B).Numbered false :=
  fun _ => ⟨rfl, List.nodup_nil, fun _ h => absurd h List.not_mem_nil⟩

theorem Numbered.weaken {c : Comm B} {spare : Bool} (h : c.Numbered spare) : c.Numbered false := by
  intro hdraws
  obtain ⟨hmesid, hnodup, hbound⟩ := h hdraws
  refine ⟨hmesid, hnodup, fun m hm => ⟨(hbound m hm).1, ?_⟩⟩
  have hle := (hbound m hm).2
  rw [Bool.toNat_false]
  omega

/-- It depends on the counter, the draws and the pushes only. -/
theorem Numbered.congr {c c' : Comm B} {spare : Bool} (h : c.Numbered spare) (hmesid : c'.mesid = c.mesid)
    (hdraws : c'.draws = c.draws) (hpushes : c'.pushes = c.pushes) : c'.Numbered spare := by
  rw [Numbered, hmesid, hdraws, hpushes]
  exact h

/-- Events that neither draw nor push. -/
theorem Numbered.log {c : Comm B} {spare : Bool} (h : c.Numbered spare) {e : Event B} (hd : e.isDrawn = false)
    (hp : e.pushed? = none) : (c.log [e]).Numbered spare := by
  refine h.congr rfl ?_ ?_
  · rw [draws_log, List.countP_singleton, hd]; rfl
  · exact filterMap_event rfl hp

/-- **Drawing an identifier** moves the counter on, and the new value is spare. -/
theorem Numbered.newMid {c : Comm B} (h : c.Numbered false) : c.newMid.2.Numbered true := by
  intro hdraws
  have hcount : c.newMid.2.draws = c.draws + 1 := draws_log _ _
  have hpushes : c.newMid.2.pushes = c.pushes := (pushes_log _ _).trans (List.append_nil _)
  rw [hcount] at hdraws
  obtain ⟨hmesid, hnodup, hbound⟩ := h (by omega)
  have hnext : (c.mesid + 1).toNat = c.draws + 1 := by
    rw [BitVec.toNat_add, hmesid, toNat_one, Nat.mod_eq_of_lt hdraws]
  have hne : c.mesid + 1 ≠ undefinedMessageid := fun hzero => by
    rw [hzero] at hnext
    simp [undefinedMessageid] at hnext
  refine ⟨?_, by rw [hpushes]; exact hnodup, fun m hm => ?_⟩
  · rw [hcount, ← hnext]
    simp only [Comm.newMid, Comm.log, if_neg hne]
  · rw [hpushes] at hm
    rw [hcount]
    exact ⟨(hbound m hm).1, Nat.add_le_add_right (hbound m hm).2 1⟩

/-- **A message queued under the spare identifier.** -/
theorem Numbered.push {c : Comm B} (h : c.Numbered true) {m : PrepearedMessage B} (hid : m.id = c.mesid)
    (hne : m.id ≠ undefinedMessageid) : (c.pushPrepearedMessage m).Numbered false := by
  have hcount : (c.pushPrepearedMessage m).draws = c.draws := draws_log _ _
  have hpushes : (c.pushPrepearedMessage m).pushes = c.pushes ++ [m] := pushes_log _ _
  intro hdraws
  rw [hcount] at hdraws
  obtain ⟨hmesid, hnodup, hbound⟩ := h hdraws
  have hpos : 0 < m.id.toNat := Nat.pos_of_ne_zero (fun hz => hne (BitVec.eq_of_toNat_eq (by rw [hz]; rfl)))
  rw [hcount, hpushes]
  refine ⟨hmesid, ?_, fun x hx => ?_⟩
  · rw [List.map_append, List.nodup_append]
    refine ⟨hnodup, List.nodup_singleton _, fun i hi j hj hij => ?_⟩
    obtain ⟨x, hx, rfl⟩ := List.mem_map.mp hi
    have hlt := (hbound x hx).2
    rw [hij, List.mem_singleton.mp hj, hid, hmesid, Bool.toNat_true] at hlt
    omega
  · rcases List.mem_append.mp hx with hx | hx
    · exact ⟨(hbound x hx).1, Nat.le_of_succ_le (hbound x hx).2⟩
    · rw [List.mem_singleton.mp hx, Bool.toNat_false, hid, hmesid]
      rw [hid, hmesid] at hpos
      exact ⟨hpos, Nat.le_refl _⟩

/-! ## Sends and replies -/

/-- A send draws an identifier, and queues the message under it or throws. -/
theorem Numbered.send {c : Comm B} (h : c.Numbered false) (hunique : conf.useUniqueMessageId = true)
    {m : BinMessage B} (hm : m.id = undefinedMessageid) : (c.prepareToWrite conf m).comm.Numbered false := by
  have hdraw : drawMid conf m c = c.newMid := by
    rw [drawMid, hunique, BinMessage.idExists, hm, bne_self_eq_false]; rfl
  rcases prepareToWrite_cases conf m c with ⟨e, hc, _⟩ | ⟨out, _, _, hc⟩ <;> rw [hc, hdraw]
  · exact h.newMid.weaken
  · exact h.newMid.push rfl (newMid_ne c)

/-- A message that has the spare identifier already is queued under it, or the send throws. -/
theorem Numbered.sendSpare {c : Comm B} (h : c.Numbered true) {m : BinMessage B} (hm : m.id = c.mesid)
    (hne : m.id ≠ undefinedMessageid) : (c.prepareToWrite conf m).comm.Numbered false := by
  have hdraw : drawMid conf m c = (m.id, c) := by
    rw [drawMid, BinMessage.idExists, bne_iff_ne.mpr hne, Bool.not_true, Bool.and_false]; rfl
  rcases prepareToWrite_cases conf m c with ⟨e, hc, _⟩ | ⟨out, _, _, hc⟩ <;> rw [hc, hdraw]
  · exact h.weaken
  · exact h.push hm hne

/-! ## Everything else -/

/-- A handler call, unless it records a draw or a push. -/
theorem Numbered.callHandler {c : Comm B} {spare : Bool} (h : c.Numbered spare) {e : Event B}
    (hd : e.isDrawn = false) (hp : e.pushed? = none) (outcome : Option Exc) :
    (c.callHandler e outcome).2.Numbered spare := by
  rw [Comm.callHandler]
  split
  · exact h.log hd hp
  · exact h

theorem Numbered.andThen {r : Option Exc × Comm B} (h : r.2.Numbered false) {k : Comm B → Option Exc × Comm B}
    (hk : ∀ c : Comm B, c.Numbered false → (k c).2.Numbered false) : (Comm.andThen r k).2.Numbered false := by
  obtain ⟨_ | e, c⟩ := r
  · exact hk c h
  · exact h

/-- Handling the messages that were sent. -/
theorem Numbered.mtProcessSentLoop (sent : List (SentMessageInfo B)) (i : Nat) {c : Comm B} (h : c.Numbered false) :
    (Comm.mtProcessSentLoop conf ch i sent c).2.Numbered false := by
  induction sent generalizing i c with
  | nil => exact h
  | cons it sent ih =>
      rw [Comm.mtProcessSentLoop]
      refine Numbered.andThen (Numbered.callHandler ?_ rfl rfl _) (fun c hc => ih (i + 1) hc)
      split
      · exact Numbered.log (e := .registered it.mid) (h.congr rfl rfl rfl) rfl rfl
      · exact h.congr rfl rfl rfl

/-- Looking for timeouts that elapsed. -/
theorem Numbered.processTimeoutsLoop (its : List (MessageId B × MessageTimeoutInfo)) (i : Nat) {c : Comm B}
    (h : c.Numbered false) : (Comm.processTimeoutsLoop ch i its c).2.Numbered false := by
  induction its generalizing i c with
  | nil => exact h
  | cons it its ih =>
      rw [Comm.processTimeoutsLoop]
      split
      · have hunreg : (c.unregMessageTimeout it.1).Numbered false := h.congr rfl rfl rfl
        exact Numbered.andThen (hunreg.callHandler (e := .messageTimeout it.1) rfl rfl _) (fun c hc => ih (i + 1) hc)
      · exact ih i h

theorem mesid_mtAsioWriteHandler (error : Nat) (intMid : MessageId B) (c : Comm B) :
    (c.mtAsioWriteHandler error intMid).mesid = c.mesid := by
  rw [mtAsioWriteHandler]
  simp only
  split
  · rfl
  · rw [mtRegSentMessage]
    split <;> rfl

theorem mesid_envStep {c c' : Comm B} {e : EnvAct B} (he : ∀ m, e ≠ .send m) (hs : c.envStep conf e = some c') :
    c'.mesid = c.mesid := by
  cases e with
  | send m => exact absurd rfl (he m)
  | connectSuccess | handshake error | readAppend bytes | readUpdated | readFail error =>
      rw [Comm.envStep] at hs
      split at hs <;> cases hs
      rfl
  | writeSome i n =>
      rw [Comm.envStep] at hs
      split at hs
      · split at hs <;> cases hs
        rfl
      · cases hs
  | writeDone i | writeFail i error =>
      rw [Comm.envStep] at hs
      split at hs
      · split at hs <;> cases hs
        exact mesid_mtAsioWriteHandler ..
      · cases hs
  | disconnect =>
      cases hs
      rw [Comm.disconnect]
      split <;> rfl

/-- The environment, unless it sends. -/
theorem Numbered.envStep {c c' : Comm B} (h : c.Numbered false) {e : EnvAct B} (he : ∀ m, e ≠ .send m)
    (hs : c.envStep conf e = some c') : c'.Numbered false := by
  obtain ⟨-, -, -, hfail⟩ := envStep_frame hs he
  refine h.congr (mesid_envStep he hs) ?_ (hfail.filterMap_eq (fun _ => rfl))
  obtain ⟨mids, hh⟩ := hfail
  have hnone : (mids.map (Event.writeFailed (B := B))).countP Event.isDrawn = 0 := by
    rw [List.countP_map]
    exact List.countP_eq_zero.mpr (fun _ _ hdrawn => by cases hdrawn)
  rw [draws, hh, List.countP_append, hnone, Nat.add_zero]
  rfl

/-- Handling a new connection. -/
theorem Numbered.connect {c : Comm B} (h : c.Numbered false) : (Comm.runStage conf ch .connect c).1.Numbered false := by
  rw [Comm.runStage]
  split
  · rw [Comm.proceed_fst]
    have hc : { c with justConnected := false }.Numbered false := h.congr rfl rfl rfl
    rcases @Comm.handleConnectedSuccess_cases B conf ch { c with justConnected := false }
      with he | ⟨-, he⟩ | ⟨-, he⟩ <;> rw [he]
    · exact Comm.Numbered.log (e := .connected) (hc.congr rfl rfl rfl) rfl rfl
    · exact Comm.Numbered.log (e := .sessionCtorThrew) (hc.congr rfl rfl rfl) rfl rfl
    · exact hc
  · exact h

/-! ## Incoming messages -/

/-- `process_received`: the reply is queued under the identifier its handler was offered. -/
theorem Numbered.processReceived {c : Comm B} (h : c.Numbered false) (hunique : conf.useUniqueMessageId = true)
    (hreply : ∀ mid outm, ch.reply mid = some outm → outm.id = undefinedMessageid) (m : BinMessage B) :
    (Comm.processReceived conf ch m c).2.Numbered false := by
  have hcall : ((c.newMid.2).callHandler (.messageArrived m) (ch.handler 0)).2.Numbered true
      ∧ ((c.newMid.2).callHandler (.messageArrived m) (ch.handler 0)).2.mesid = c.newMid.1 := by
    refine ⟨h.newMid.callHandler rfl rfl _, ?_⟩
    rw [Comm.callHandler]
    split <;> rfl
  rw [Comm.processReceived, if_pos hunique]
  simp only
  rcases hr : (c.newMid.2).callHandler (.messageArrived m) (ch.handler 0) with ⟨_ | e, c'⟩ <;> rw [hr] at hcall
  · obtain ⟨hnum, hmesid⟩ := hcall
    simp only [Comm.andThen]
    cases hr : ch.reply c.newMid.1 with
    | none => exact hnum.weaken
    | some outm =>
        have hid : (makeReply conf c.newMid.1 m outm).id = c.newMid.1 := by
          rw [makeReply, hunique, BinMessage.idExists, hreply _ _ hr, bne_self_eq_false]; rfl
        have hsent : (c'.prepareToWrite conf (makeReply conf c.newMid.1 m outm)).comm.Numbered false :=
          hnum.sendSpare (by rw [hid]; exact hmesid.symm) (by rw [hid]; exact newMid_ne c)
        simp only
        split <;> exact hsent
  · exact hcall.1.weaken

/-- `process_incoming`. -/
theorem Numbered.processIncoming {c : Comm B} (h : c.Numbered false) (hunique : conf.useUniqueMessageId = true)
    (hreply : ∀ mid outm, ch.reply mid = some outm → outm.id = undefinedMessageid) (m : BinMessage B) :
    (Comm.processIncoming conf ch m c).2.Numbered false := by
  rw [Comm.processIncoming]
  split
  · rw [Comm.processReply]
    split
    · exact h.log (e := .discarded m.rid) rfl rfl
    · split
      · exact Numbered.processReceived (c := c.unregMessageTimeout m.rid) (h.congr rfl rfl rfl) hunique hreply m
      · exact h
  · exact h.processReceived hunique hreply m

/-! ## Operations -/

/-- Messages are passed without an identifier, to a send and by a handler that replies. -/
def Op.Fresh : Op B → Prop
  | .env (.send m) => m.id = undefinedMessageid
  | .incoming ch _ => ∀ mid outm, ch.reply mid = some outm → outm.id = undefinedMessageid
  | _              => True

/-- **Every operation of a communicator keeps it**, as long as messages are passed without an identifier. -/
theorem Numbered.opStep {c c' : Comm B} (h : c.Numbered false) (hunique : conf.useUniqueMessageId = true)
    {op : Op B} (hop : op.Fresh) (hs : c.opStep conf op = some c') : c'.Numbered false := by
  cases op with
  | env e =>
      rcases envStep_cases hs with ⟨m, rfl, rfl⟩ | he
      · exact h.send hunique hop
      · exact h.envStep he hs
  | startWrite =>
      obtain ⟨m, -, rfl⟩ := Option.map_eq_some_iff.mp hs
      exact Numbered.log (h.congr rfl rfl rfl) rfl rfl
  | connect ch =>
      cases hs
      exact h.connect
  | processSent ch =>
      cases hs
      rw [runStage]
      split
      · exact h
      · rw [proceed_fst]
        exact h.mtProcessSentLoop _ 0
  | incoming ch m =>
      rw [Comm.opStep] at hs
      split at hs <;> cases hs
      exact h.processIncoming hunique hop m
  | timeouts ch =>
      cases hs
      exact h.processTimeoutsLoop _ 0

end Comm

/-! ## The calls of a dispatcher, one at a time -/

namespace Dispatcher

/-- No communicators; every object in the heap is a fresh one. -/
def init : Dispatcher B := ⟨.empty, Comm.create⟩

/-- The order `send_all` reaches the communicators in, which is that of its two passes. -/
def order (d : Dispatcher B) : List CommId := d.clients.clients.toList ++ d.clients.excluded.toList

/-- `send_all`: one pass over the clients and one over the excluded clients, with the same message object. -/
def sendAll (conf : Config B) (message : BinMessage B) (d : Dispatcher B) : Sended B :=
  let p := sendAllPass conf d.clients.clients message d.comms
  match p.thrown with
  | some _ => p
  | none   =>
      let q := sendAllPass conf d.clients.excluded p.message p.comms
      { q with sended := mergeSended p.sended q.sended }

/-- `comm(commid)->send(message)`, the communicators after it: an unknown identifier throws
    `session_not_found`. -/
def sendOne (conf : Config B) (id : CommId) (message : BinMessage B) (d : Dispatcher B) : CommId → Comm B :=
  if d.clients.clientExists id then
    Function.update d.comms id ((d.comms id).prepareToWrite conf message).comm
  else d.comms

/-- An operation of a communicator that passes no message with an identifier. -/
abbrev FreshOp (B : Build) := { op : Comm.Op B // op.Fresh }

/-- What happens to a dispatcher. -/
inductive Call (B : Build) where
  /-- A connection is accepted: `insert_comm`, then `just_connected(true)`. -/
  | accept (id : CommId)
  /-- The communicator connects, writes, handles what was sent, what arrives or what elapsed. -/
  | process (id : CommId) (op : FreshOp B)
  | takeOut
  | getBack (id : CommId)
  | erase (id : CommId)
  | sendOne (id : CommId) (m : FreshMessage B)
  | sendAll (m : FreshMessage B)

/-- One call. -/
def step (conf : Config B) (d : Dispatcher B) : Call B → Option (Dispatcher B)
  | .accept id     =>
      ((d.comms id).envStep conf .connectSuccess).map (fun c =>
        { d with clients := d.clients.insert id, comms := Function.update d.comms id c })
  | .process id op =>
      ((d.comms id).opStep conf op.val).map (fun c => { d with comms := Function.update d.comms id c })
  | .takeOut       => some { d with clients := d.clients.takeOut.2 }
  | .getBack id    => some { d with clients := d.clients.getBack id }
  | .erase id      => some { d with clients := (d.clients.erase id).2 }
  | .sendOne id m  => some { d with comms := d.sendOne conf id m.val }
  | .sendAll m     => some { d with comms := (d.sendAll conf m.val).comms }

/-- The call of `send_all` hands its message object on: the first communicator it reaches queues the message,
    and there is another one. -/
def handsOn (conf : Config B) (m : BinMessage B) (d : Dispatcher B) : Bool :=
  match d.order with
  | id :: _ :: _ => ((d.comms id).prepareToWrite conf m).result.isOk
  | _            => false

/-- The message a call sends to everybody. -/
def Call.sendAll? : Call B → Option (FreshMessage B)
  | .sendAll m => some m
  | _          => none

/-- No message object is handed on from one communicator to the next. -/
def KeepsMessage (conf : Config B) (d : Dispatcher B) (call : Call B) : Prop :=
  ∀ m ∈ call.sendAll?, d.handsOn conf m.val = false

instance (d : Dispatcher B) (call : Call B) : Decidable (KeepsMessage conf d call) :=
  inferInstanceAs (Decidable (∀ m ∈ call.sendAll?, d.handsOn conf m.val = false))

/-- Apart from the map it returns, `send_all` is one pass over all communicators. -/
theorem sendAll_eq (m : BinMessage B) (d : Dispatcher B) :
    (d.sendAll conf m).comms = (messageSender conf d.order ∅ m d.comms).comms
      ∧ (d.sendAll conf m).thrown = (messageSender conf d.order ∅ m d.comms).thrown := by
  rw [sendAll, order, messageSender_append, sendAllPass]
  cases hp : (messageSender conf d.clients.clients.toList ∅ m d.comms).thrown with
  | some e => simp [hp]
  | none =>
      simp only [hp, Option.isSome_none, Bool.false_eq_true, if_false, sendAllPass]
      exact messageSender_sended _ _ _ _ _

/-- **A `send_all` that keeps its message object** sends to one communicator at most. -/
theorem sendAll_keeps {m : BinMessage B} {d : Dispatcher B} (h : d.handsOn conf m = false) :
    (d.sendAll conf m).comms = d.comms ∨ ∃ id, (d.sendAll conf m).comms
      = Function.update d.comms id ((d.comms id).prepareToWrite conf m).comm := by
  rw [handsOn] at h
  rw [(sendAll_eq m d).1]
  rcases ho : d.order with _ | ⟨id, _ | ⟨id', ids⟩⟩ <;> rw [ho] at h
  · exact .inl rfl
  · refine .inr ⟨id, ?_⟩
    rw [messageSender]
    cases ((d.comms id).prepareToWrite conf m).result <;> rfl
  · have hthrew : ((d.comms id).prepareToWrite conf m).result.isOk = false := h
    refine .inr ⟨id, ?_⟩
    rw [messageSender]
    cases hr : ((d.comms id).prepareToWrite conf m).result with
    | error e => rfl
    | ok mid  => rw [hr] at hthrew; cases hthrew

/-- Every communicator's identifiers are numbered. -/
def Numbered (d : Dispatcher B) : Prop := ∀ id, (d.comms id).Numbered false

theorem Numbered.update {d : Dispatcher B} (h : d.Numbered) {clients : CommContainer} {id : CommId} {c : Comm B}
    (hc : c.Numbered false) : (⟨clients, Function.update d.comms id c⟩ : Dispatcher B).Numbered := by
  intro k
  simp only [Function.update_apply]
  split
  · exact hc
  · exact h k

theorem Numbered.step {d d' : Dispatcher B} {call : Call B} (hunique : conf.useUniqueMessageId = true)
    (h : d.Numbered) (hok : KeepsMessage conf d call) (hs : Dispatcher.step conf d call = some d') :
    d'.Numbered := by
  cases call with
  | accept id =>
      obtain ⟨c, hc, rfl⟩ := Option.map_eq_some_iff.mp hs
      exact h.update ((h id).envStep (fun _ he => by cases he) hc)
  | process id op =>
      obtain ⟨c, hc, rfl⟩ := Option.map_eq_some_iff.mp hs
      exact h.update ((h id).opStep hunique op.property hc)
  | takeOut | getBack id | erase id => cases hs; exact h
  | sendOne id m =>
      cases hs
      rw [Dispatcher.sendOne]
      split
      · exact h.update ((h id).send hunique m.property)
      · exact h
  | sendAll m =>
      cases hs
      rcases sendAll_keeps (hok m rfl) with hc | ⟨id, hc⟩ <;> rw [hc]
      · exact h
      · exact h.update ((h id).send hunique m.property)

/-- **Message identifiers are unique per connection** as long as no `send_all` hands its message object on from
    one communicator to the next. After any calls, one at a time, with unique identifiers configured and every
    message passed without an identifier: what was queued on a communicator that drew fewer identifiers than
    there are carries pairwise different identifiers, none of them undefined. -/
theorem ids_unique (conf : Config B) (calls : List (Call B)) (d : Dispatcher B)
    (hunique : conf.useUniqueMessageId = true)
    (hok : Machine.Guarded (Dispatcher.step conf) (KeepsMessage conf) .init calls)
    (hrun : Machine.run (Dispatcher.step conf) .init calls = some d) (id : CommId)
    (hdraws : (d.comms id).draws < 2 ^ (8 * B.sizeofULong)) :
    ((d.comms id).pushes.map PrepearedMessage.id).Nodup
      ∧ ∀ m ∈ (d.comms id).pushes, m.id ≠ undefinedMessageid := by
  have hinit : (Dispatcher.init : Dispatcher B).Numbered := Comm.Numbered.create
  have hd : d.Numbered := Machine.run_guarded_invariant Numbered
    (fun _ _ _ h hok hs => h.step hunique hok hs) calls _ _ hinit hok hrun
  obtain ⟨_, hnodup, hbound⟩ := hd id hdraws
  refine ⟨hnodup, fun m hm hzero => ?_⟩
  have hpos := (hbound m hm).1
  rw [hzero] at hpos
  exact absurd hpos (Nat.lt_irrefl 0)

/-- A connection is accepted and handled. -/
def connected (id : CommId) : List (Call .lp64) := [.accept id, .process id ⟨.connect .plain, trivial⟩]

/-- Every message that arrives is answered. -/
def answering : Choice .lp64 := { (Choice.plain : Choice .lp64) with reply := fun _ => some ⟨[0x64], 0, 0, 0, []⟩ }

theorem answering_fresh (m : BinMessage .lp64) : (Comm.Op.incoming answering m).Fresh := by
  intro mid outm h
  cases h
  rfl

/-- One of two connections sends a message and handles that it was sent, answers its reply and a request, and
    `send_all` is called when it is the one that is left. -/
def oneAtATime : List (Call .lp64) :=
  connected 0 ++ connected 1 ++ [.sendOne 1 ⟨⟨[0x61], 0, 0, 0, []⟩, rfl⟩, .process 1 ⟨.startWrite, trivial⟩,
    .process 1 ⟨.env (.writeSome 0 13), trivial⟩, .process 1 ⟨.env (.writeDone 0), trivial⟩,
    .process 1 ⟨.processSent .plain, trivial⟩,
    .process 1 ⟨.incoming answering ⟨[0x62], 7, 1, 0, []⟩, answering_fresh _⟩,
    .process 1 ⟨.incoming answering ⟨[0x63], 9, 0, 0, []⟩, answering_fresh _⟩,
    .erase 0, .sendAll ⟨⟨[0x65], 0, 0, 0, []⟩, rfl⟩]

theorem runs_oneAtATime : (Machine.run (Dispatcher.step Config.asking) .init oneAtATime).isSome = true := by
  decide +kernel

/-- The guarantee for the connection that is left, which has queued four messages. -/
theorem ids_unique_oneAtATime : ∃ d, Machine.run (Dispatcher.step Config.asking) .init oneAtATime = some d
    ∧ (d.comms 1).pushes.map PrepearedMessage.id = [1, 2, 3, 4]
    ∧ ((d.comms 1).pushes.map PrepearedMessage.id).Nodup
    ∧ ∀ m ∈ (d.comms 1).pushes, m.id ≠ undefinedMessageid :=
  ⟨(Machine.run (Dispatcher.step Config.asking) .init oneAtATime).get runs_oneAtATime, (Option.some_get _).symm,
    by decide +kernel, ids_unique Config.asking oneAtATime _ rfl (by decide +kernel) (Option.some_get _).symm 1
      (by decide +kernel)⟩

/-- **`send_all` to two connections repeats an identifier**: the one the first connection draws is written into
    the message object, the second one queues it without drawing it, and draws the same one next. -/
theorem sendAll_repeats : ¬ ∀ (calls : List (Call .lp64)) (d : Dispatcher .lp64),
    Machine.run (Dispatcher.step { Config.plain with useUniqueMessageId := true }) .init calls = some d →
    ∀ id, (d.comms id).draws < 2 ^ 64 → ((d.comms id).pushes.map PrepearedMessage.id).Nodup := by
  intro hclaim
  have hnodup := hclaim (connected 0 ++ connected 1 ++ [.sendAll ⟨⟨[0x61], 0, 0, 0, []⟩, rfl⟩,
    .sendOne 1 ⟨⟨[0x62], 0, 0, 0, []⟩, rfl⟩]) _ rfl 1 (by decide +kernel)
  exact absurd hnodup (by decide +kernel)

end Dispatcher

end Unicomm
