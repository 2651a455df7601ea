import Unicomm.Comm.SentReports
import Unicomm.Lib.Custody
import Unicomm.Lib.Table

/-!
# `Comm.SentHandlers` — the handler given to `send`

Models `communicator::send(message, handler)` and the table `_sent_handlers` of `extended_session`
(`extended_session.ipp`). The sender pushes the message and **then** registers the handler under the message's
identifier; the dispatcher thread, once the write has completed, looks the handler up, calls it and erases the
entry, in three steps.

So the look-up can come before the registration: the handler is never called, and its entry stays. And a second
message of the same identifier takes the entry of the first. `handlers_called_once`: in every other run each
notification calls the handler of its message, once, and leaves no entry.

The threads that send are `Fin N`; handlers are values of `H`. Every message is sent with a handler, and nothing
arrives. What the results are about is kept in three fields no step reads: `waiting` is the table as it would be if
pushing and registering were one step, `due` the calls the notifications owe, `called` those that were made.
-/

namespace Unicomm

open Std (ExtTreeMap)

variable {B : Build} {N : Nat} {H : Type} {conf : Config B}

/-- Where the dispatcher thread stands inside `call_message_sent`. -/
inductive NotifyPos (B : Build) (H : Type) where
  | idle
  /-- The entry left `_sent_messages`; the handler is to be looked up. -/
  | find (mid : MessageId B)
  /-- What was found is to be called. -/
  | call (mid : MessageId B) (handler : Option H)
  /-- The sentry is to unregister, however the handler ended. -/
  | unregister (mid : MessageId B)

/-- The identifier of the message that is being notified. -/
def NotifyPos.mid? : NotifyPos B H → Option (MessageId B)
  | .idle           => none
  | .find mid       => some mid
  | .call mid _     => some mid
  | .unregister mid => some mid

/-- A communicator with its session's table of sent handlers, the threads that send, and the dispatcher thread.
    -/
structure HandlerSystem (B : Build) (N : Nat) (H : Type) where
  comm         : Comm B
  /-- `_sent_handlers`. -/
  sentHandlers : ExtTreeMap (MessageId B) H compare
  /-- A sender that pushed its message and has still to register the handler. -/
  pending      : Fin N → Option (MessageId B × H)
  notify       : NotifyPos B H
  /-- The handler of the message that carries an identifier, from the push to the end of the notification. -/
  waiting      : MessageId B → Option H
  /-- The calls the notifications owe, in order. -/
  due          : List (MessageId B × H)
  /-- The calls that were made, in order. -/
  called       : List (MessageId B × H)

namespace HandlerSystem

/-- The atomic steps. -/
inductive Act (B : Build) (N : Nat) (H : Type) where
  /-- `send(message, handler)` as far as the push. -/
  | send (t : Fin N) (m : BinMessage B) (handler : H)
  /-- `reg_messsage_sent`. -/
  | register (t : Fin N)
  | env (e : EnvAct B)
  | connect (ch : Choice B)
  | startWrite
  /-- `mt_process_sent` takes the next entry, the head of its loop (`Comm.mtProcessSentLoop_cons`). -/
  | take (ch : Choice B)
  /-- `find_message_sent_handler`. -/
  | find
  | call
  /-- `unreg_message_sent`. -/
  | unregister

/-- The steps of the environment that go together with the position of the dispatcher thread: every message is
    sent with a handler, and a successful completion waits for `_sent_mes_mutex`. -/
def admits (notify : NotifyPos B H) : EnvAct B → Bool
  | .send _      => false
  | .writeDone _ => notify.mid? == none
  | _            => true

/-- One step. What the dispatcher thread does elsewhere in `mt_process`, it does when it notifies nobody. -/
def step (conf : Config B) (s : HandlerSystem B N H) : Act B N H → Option (HandlerSystem B N H)
  | .send t m handler =>
      match s.pending t with
      | some _ => none
      | none   =>
          let p := s.comm.prepareToWrite conf m
          match p.result with
          | .error _ => some { s with comm := p.comm }
          | .ok mid  => some { s with
              comm    := p.comm
              pending := Function.update s.pending t (some (mid, handler))
              waiting := Function.update s.waiting mid (some handler) }
  | .register t =>
      match s.pending t with
      | none                => none
      | some (mid, handler) => some { s with
          sentHandlers := s.sentHandlers.insert mid handler
          pending      := Function.update s.pending t none }
  | .env e => if admits s.notify e then (s.comm.envStep conf e).map (fun c => { s with comm := c }) else none
  | .connect ch =>
      match s.notify with
      | .idle => some { s with comm := (Comm.runStage conf ch .connect s.comm).1 }
      | _     => none
  | .startWrite =>
      match s.notify with
      | .idle => s.comm.frontCopy.map (fun m => { s with comm := s.comm.popAndWrite m })
      | _     => none
  | .take ch =>
      match s.notify, s.comm.sentMessages with
      | .idle, it :: sent =>
          if s.comm.userSession then some { s with
            comm   := (s.comm.regSent conf ch it sent).log [.messageSent it.mid]
            notify := .find it.mid
            due    := s.due ++ ((s.waiting it.mid).map (fun h => (it.mid, h))).toList }
          else none
      | _, _ => none
  | .find =>
      match s.notify with
      | .find mid => some { s with notify := .call mid s.sentHandlers[mid]? }
      | _         => none
  | .call =>
      match s.notify with
      | .call mid handler => some { s with
          notify := .unregister mid
          called := s.called ++ (handler.map (fun h => (mid, h))).toList }
      | _ => none
  | .unregister =>
      match s.notify with
      | .unregister mid => some { s with
          sentHandlers := s.sentHandlers.erase mid
          notify       := .idle
          waiting      := Function.update s.waiting mid none }
      | _ => none

/-- A freshly accepted or connected communicator. -/
def init (id : CommId) : HandlerSystem B N H :=
  ⟨Comm.create id, ∅, fun _ => none, .idle, fun _ => none, [], []⟩

/-! ## Where identifiers are in flight -/

/-- The places a message goes through. -/
inductive Place (B : Build) where
  | queue
  | out (intMid : MessageId B)
  | sent
  | notified
  deriving DecidableEq

/-- The identifiers of the messages in a place. -/
def ids (s : HandlerSystem B N H) : Place B → List (MessageId B)
  | .queue      => s.comm.prepearedMQueue.map PrepearedMessage.id
  | .out intMid => (s.comm.outBuffers[intMid]?.map PrepearedMessage.id).toList
  | .sent       => s.comm.sentMessages.map SentMessageInfo.mid
  | .notified   => s.notify.mid?.toList

/-- Whether a message with this identifier is on its way, or its handler has still to be registered. -/
def inFlight (s : HandlerSystem B N H) (mid : MessageId B) : Bool :=
  s.comm.prepearedMQueue.any (·.id == mid) || s.comm.outBuffers.toList.any (·.2.id == mid)
    || s.comm.sentMessages.any (·.mid == mid) || s.notify.mid? == some mid
    || decide (∃ t, (s.pending t).map Prod.fst = some mid)

variable {s s' : HandlerSystem B N H}

/-- What is not in flight is in no place. -/
theorem notMem_ids {mid : MessageId B} (h : s.inFlight mid = false) :
    (∀ p, mid ∉ s.ids p) ∧ ∀ t, (s.pending t).map Prod.fst ≠ some mid := by
  simp only [inFlight, Bool.or_eq_false_iff, List.any_eq_false, beq_iff_eq, decide_eq_false_iff_not,
    not_exists] at h
  obtain ⟨⟨⟨⟨hqueue, hout⟩, hsent⟩, hnotify⟩, hpending⟩ := h
  refine ⟨fun p hp => ?_, hpending⟩
  cases p with
  | queue =>
      obtain ⟨m, hm, rfl⟩ := List.mem_map.mp hp
      exact hqueue m hm rfl
  | out k =>
      obtain ⟨m, hm, rfl⟩ := Option.map_eq_some_iff.mp (Option.mem_toList.mp hp)
      exact hout (k, m) (Std.ExtTreeMap.mem_toList_iff_getElem?_eq_some.mpr hm) rfl
  | sent =>
      obtain ⟨it, hit, rfl⟩ := List.mem_map.mp hp
      exact hsent it hit rfl
  | notified =>
      have hmid : s.notify.mid? = some mid := Option.mem_toList.mp hp
      rw [hmid] at hnotify
      simp at hnotify

/-! ## Which runs keep the handlers -/

/-- A step that **keeps the handlers**: a message is not sent under an identifier that is in flight, and a
    handler is not looked up while the send of its message has still to register it. -/
def KeepsHandlers (conf : Config B) (s : HandlerSystem B N H) : Act B N H → Prop
  | .send _ m _ =>
      match (s.comm.prepareToWrite conf m).result with
      | .ok mid  => s.inFlight mid = false
      | .error _ => True
  | .find =>
      match s.notify with
      | .find mid => ∀ t, (s.pending t).map Prod.fst ≠ some mid
      | _         => True
  | _ => True

instance (a : Act B N H) : Decidable (s.KeepsHandlers conf a) := by
  unfold KeepsHandlers
  split
  · split <;> infer_instance
  · split <;> infer_instance
  · infer_instance

/-- The call that is owed but not made yet. -/
def owed (s : HandlerSystem B N H) : List (MessageId B × H) :=
  match s.notify with
  | .find mid | .call mid _ => ((s.waiting mid).map (fun h => (mid, h))).toList
  | _                       => []

/-- **The tables fit together.** -/
structure Inv (s : HandlerSystem B N H) : Prop where
  /-- No identifier is in two places. -/
  custody    : Custody ∅ s.ids
  /-- Every message on its way has a handler that waits for it, -/
  waits      : ∀ p mid, mid ∈ s.ids p → (s.waiting mid).isSome = true
  /-- which is in the table or about to be, -/
  registered : ∀ mid h, s.waiting mid = some h → s.sentHandlers[mid]? = some h ∨ ∃ t, s.pending t = some (mid, h)
  pendings   : ∀ t mid h, s.pending t = some (mid, h) → s.waiting mid = some h
  /-- one sender for each, -/
  alone      : ∀ t u mid h h', s.pending t = some (mid, h) → s.pending u = some (mid, h') → t = u
  /-- and nothing else is in the table, an entry that is about to be replaced apart. -/
  entries    : ∀ mid h, s.sentHandlers[mid]? = some h →
    s.waiting mid = some h ∨ ∃ t, (s.pending t).map Prod.fst = some mid
  /-- Once looked up, -/
  looked     : ∀ mid, s.notify.mid? = some mid → s.notify ≠ .find mid → ∀ t, (s.pending t).map Prod.fst ≠ some mid
  /-- the handler found is the one that waits. -/
  found      : ∀ mid handler, s.notify = .call mid handler → handler = s.waiting mid
  due        : s.due = s.called ++ s.owed
  answers    : s.due.map Prod.fst = s.comm.reported

theorem Inv.init (id : CommId) : (HandlerSystem.init id : HandlerSystem B N H).Inv where
  custody    := by
    have hnone : (HandlerSystem.init id : HandlerSystem B N H).ids = fun _ => [] := by
      funext p
      cases p <;> rfl
    rw [hnone]
    exact Custody.start _
  waits      := by
    intro p mid hmid
    cases p <;> exact absurd hmid List.not_mem_nil
  registered := fun _ _ h => by cases h
  pendings   := fun _ _ _ h => by cases h
  alone      := fun _ _ _ _ _ h => by cases h
  entries    := fun _ _ h => by cases h
  looked     := fun _ h => by cases h
  found      := fun _ _ h => by cases h
  due        := rfl
  answers    := rfl

/-! ## The messages move -/

/-- A step of the communicator that leaves the tables alone. -/
theorem Inv.of_comm {c : Comm B} (hinv : s.Inv)
    (hcustody : Custody ∅ ({ s with comm := c } : HandlerSystem B N H).ids)
    (hsub : ∀ p mid, mid ∈ ({ s with comm := c } : HandlerSystem B N H).ids p → ∃ q, mid ∈ s.ids q)
    (hreported : c.reported = s.comm.reported) : ({ s with comm := c } : HandlerSystem B N H).Inv where
  custody    := hcustody
  waits      := fun p mid hmid => by
    obtain ⟨q, hq⟩ := hsub p mid hmid
    exact hinv.waits q mid hq
  registered := hinv.registered
  pendings   := hinv.pendings
  alone      := hinv.alone
  entries    := hinv.entries
  looked     := hinv.looked
  found      := hinv.found
  due        := hinv.due
  answers    := hinv.answers.trans hreported.symm

/-- One that leaves every message where it is. -/
theorem Inv.of_still {c : Comm B} (hinv : s.Inv)
    (hqueue : c.prepearedMQueue = s.comm.prepearedMQueue) (hout : c.outBuffers = s.comm.outBuffers)
    (hsent : c.sentMessages = s.comm.sentMessages) (hreported : c.reported = s.comm.reported) :
    ({ s with comm := c } : HandlerSystem B N H).Inv := by
  have hids : ({ s with comm := c } : HandlerSystem B N H).ids = s.ids := by
    funext p
    cases p with
    | queue => rw [ids, ids, hqueue]
    | out k => rw [ids, ids, hout]
    | sent => rw [ids, ids, hsent]
    | notified => rfl
  exact hinv.of_comm (by rw [hids]; exact hinv.custody) (fun p mid hmid => ⟨p, by rwa [hids] at hmid⟩)
    hreported

/-- **A write completes**: its message goes on to those sent, or is gone. -/
theorem Inv.env {e : EnvAct B} {c : Comm B} (hinv : s.Inv) (he : ∀ m, e ≠ .send m)
    (h : s.comm.envStep conf e = some c) : ({ s with comm := c } : HandlerSystem B N H).Inv := by
  obtain ⟨-, hqueue, -, hfail⟩ := Comm.envStep_frame h he
  have hreported := Comm.reported_onlyFailures hfail
  rcases Comm.envStep_out h he with ⟨hout, hsent⟩ | ⟨error, k, hout, hsent⟩
  · exact hinv.of_still hqueue hout hsent hreported
  cases hk : s.comm.outBuffers[k]? with
  | none =>
      -- no message of that write is left, so nothing moves
      have hsame : s.comm.outBuffers.erase k = s.comm.outBuffers := by
        refine Std.ExtTreeMap.ext_getElem? fun l => ?_
        rw [Table.getElem?_erase]
        split
        · next heq => rw [← heq, hk]
        · rfl
      rw [hk, ite_self] at hsent
      exact hinv.of_still hqueue (hout.trans hsame) (hsent.trans (List.append_nil _)) hreported
  | some m =>
      have hgone : ({ s with comm := c } : HandlerSystem B N H).ids (.out k) = [] := by
        rw [ids]
        simp only [hout, Table.getElem?_erase, if_true]
        rfl
      have hhere : s.ids (.out k) = [m.id] := by
        rw [ids, hk]
        rfl
      have hrest : ∀ p, p ≠ .out k → p ≠ .sent → ({ s with comm := c } : HandlerSystem B N H).ids p = s.ids p := by
        intro p hp hp'
        cases p with
        | queue => rw [ids, ids, hqueue]
        | out l =>
            have hne : k ≠ l := fun heq => hp (by rw [heq])
            rw [ids, ids]
            simp only [hout, Table.getElem?_erase, if_neg hne]
        | sent => exact absurd rfl hp'
        | notified => rfl
      have hleave : (s.ids (.out k)).Perm (m.id :: ({ s with comm := c } : HandlerSystem B N H).ids (.out k)) := by
        rw [hhere, hgone]
      rw [hk] at hsent
      by_cases herr : error = 0
      · -- the message waits to be notified
        have hnow : ({ s with comm := c } : HandlerSystem B N H).ids .sent = s.ids .sent ++ [m.id] := by
          rw [ids, ids, hsent]
          simp [herr]
        have harrive : (({ s with comm := c } : HandlerSystem B N H).ids .sent).Perm (m.id :: s.ids .sent) := by
          rw [hnow]
          exact List.perm_append_singleton _ _
        exact hinv.of_comm (hinv.custody.move (fun hp => by cases hp) hleave harrive hrest)
          (fun _ _ hmid => Custody.exists_mem_of_move hleave harrive hrest hmid) hreported
      · -- the message is gone, and its handler will wait in vain
        have hsame : ({ s with comm := c } : HandlerSystem B N H).ids .sent = s.ids .sent := by
          rw [ids, ids, hsent]
          simp [herr]
        have hrest' : ∀ p, p ≠ .out k → ({ s with comm := c } : HandlerSystem B N H).ids p = s.ids p := by
          intro p hp
          by_cases hps : p = .sent
          · rw [hps, hsame]
          · exact hrest p hp hps
        exact hinv.of_comm (hinv.custody.release hleave hrest').1
          (fun _ _ hmid => Custody.exists_mem_of_release hleave hrest' hmid) hreported

/-- **A write is started**: its message leaves the queue, and is lost if its internal identifier is taken. -/
theorem Inv.startWrite {m : PrepearedMessage B} (hinv : s.Inv) (h : s.comm.frontCopy = some m) :
    ({ s with comm := s.comm.popAndWrite m } : HandlerSystem B N H).Inv := by
  obtain ⟨queue, hqueue⟩ : ∃ queue, s.comm.prepearedMQueue = m :: queue := List.head?_eq_some_iff.mp h
  have hleave : (s.ids .queue).Perm
      (m.id :: ({ s with comm := s.comm.popAndWrite m } : HandlerSystem B N H).ids .queue) := by
    change (s.comm.prepearedMQueue.map _).Perm (m.id :: s.comm.prepearedMQueue.tail.map _)
    rw [hqueue]
    exact List.Perm.refl _
  have hreported : (s.comm.popAndWrite m).reported = s.comm.reported :=
    Comm.reported_event (e := .handed m) rfl rfl
  -- `_out_buffers.insert` refuses a key that is taken: the message is in no place any more
  by_cases htaken : s.comm.internalMid ∈ s.comm.outBuffers
  · have hout : (s.comm.popAndWrite m).outBuffers = s.comm.outBuffers := Table.insertIfNew_of_mem htaken
    have hrest : ∀ p, p ≠ .queue →
        ({ s with comm := s.comm.popAndWrite m } : HandlerSystem B N H).ids p = s.ids p := by
      intro p hp
      cases p with
      | queue => exact absurd rfl hp
      | out l => rw [ids, ids, hout]
      | sent | notified => rfl
    exact hinv.of_comm (hinv.custody.release hleave hrest).1
      (fun _ _ hmid => Custody.exists_mem_of_release hleave hrest hmid) hreported
  -- else it moves from the queue to the buffers
  · have hout : (s.comm.popAndWrite m).outBuffers = s.comm.outBuffers.insertIfNew s.comm.internalMid m := rfl
    have harrive : (({ s with comm := s.comm.popAndWrite m } : HandlerSystem B N H).ids
        (.out s.comm.internalMid)).Perm (m.id :: s.ids (.out s.comm.internalMid)) := by
      have hnone : s.comm.outBuffers[s.comm.internalMid]? = none := Std.ExtTreeMap.getElem?_eq_none htaken
      rw [ids, ids, hnone]
      simp only [hout, Table.getElem?_insertIfNew htaken, if_true]
      exact List.Perm.refl _
    have hrest : ∀ p, p ≠ .queue → p ≠ .out s.comm.internalMid →
        ({ s with comm := s.comm.popAndWrite m } : HandlerSystem B N H).ids p = s.ids p := by
      intro p hp hp'
      cases p with
      | queue => exact absurd rfl hp
      | out l =>
          have hne : s.comm.internalMid ≠ l := fun heq => hp' (by rw [heq])
          rw [ids, ids]
          simp only [hout, Table.getElem?_insertIfNew htaken, if_neg hne]
      | sent | notified => rfl
    exact hinv.of_comm (hinv.custody.move (fun hp => by cases hp) hleave harrive hrest)
      (fun _ _ hmid => Custody.exists_mem_of_move hleave harrive hrest hmid) hreported

/-- Connecting moves no message. -/
theorem Inv.connect {ch : Choice B} (hinv : s.Inv) :
    ({ s with comm := (Comm.runStage conf ch .connect s.comm).1 } : HandlerSystem B N H).Inv := by
  rw [Comm.runStage]
  split
  · rw [Comm.proceed_fst]
    rcases @Comm.handleConnectedSuccess_cases B conf ch { s.comm with justConnected := false }
      with h | ⟨_, h⟩ | ⟨_, h⟩ <;> rw [h]
    · exact hinv.of_still rfl rfl rfl (Comm.reported_event (e := .connected) rfl rfl)
    · exact hinv.of_still rfl rfl rfl (Comm.reported_event (e := .sessionCtorThrew) rfl rfl)
    · exact hinv.of_still rfl rfl rfl rfl
  · exact hinv

/-! ## The tables -/

/-- The state behind a push: the communicator has the message, and the handler is about to be registered. -/
def pushed (s : HandlerSystem B N H) (t : Fin N) (mid : MessageId B) (handler : H) (c : Comm B) :
    HandlerSystem B N H :=
  { s with
    comm    := c
    pending := Function.update s.pending t (some (mid, handler))
    waiting := Function.update s.waiting mid (some handler) }

/-- Only the queue changes. -/
theorem ids_pushed {t : Fin N} {mid : MessageId B} {handler : H} {c : Comm B}
    (hout : c.outBuffers = s.comm.outBuffers) (hsent : c.sentMessages = s.comm.sentMessages) :
    ∀ p, p ≠ .queue → (s.pushed t mid handler c).ids p = s.ids p := by
  intro p hp
  unfold pushed
  cases p with
  | queue => exact absurd rfl hp
  | out k => rw [ids, ids]; simp only [hout]
  | sent => rw [ids, ids]; simp only [hsent]
  | notified => rfl

/-- No call is owed for a message that is not being notified. -/
theorem owed_pushed {t : Fin N} {mid : MessageId B} {handler : H} {c : Comm B}
    (hnotified : ∀ {mid'}, s.notify.mid? = some mid' → mid' ≠ mid) : (s.pushed t mid handler c).owed = s.owed := by
  unfold pushed
  simp only [owed]
  cases hn : s.notify with
  | find mid' | call mid' => simp only [Function.update_of_ne (hnotified (by rw [hn]; rfl))]
  | idle | unregister => rfl

/-- **A message is pushed**: it waits for its notification with the handler that is about to be registered. -/
theorem Inv.push {t : Fin N} {mid : MessageId B} {handler : H} {c : Comm B} (hinv : s.Inv)
    (hidle : s.pending t = none) (hfree : s.inFlight mid = false)
    (hqueue : (c.prepearedMQueue.map PrepearedMessage.id).Perm
      (mid :: s.comm.prepearedMQueue.map PrepearedMessage.id))
    (hout : c.outBuffers = s.comm.outBuffers) (hsent : c.sentMessages = s.comm.sentMessages)
    (hreported : c.reported = s.comm.reported) : (s.pushed t mid handler c).Inv := by
  obtain ⟨hplaces, hpending⟩ := notMem_ids hfree
  -- a thread is owed the old registrations and, if it is the one that pushes, the new one
  have hnew : ∀ {u : Fin N} {p : MessageId B × H}, Function.update s.pending t (some (mid, handler)) u = some p →
      (u = t ∧ p = (mid, handler)) ∨ (p.1 ≠ mid ∧ s.pending u = some p) := by
    intro u p hu
    refine (Table.of_update_some hu).imp_right (fun ⟨_, hold⟩ => ⟨fun hp => ?_, hold⟩)
    exact hpending u (by rw [hold, ← hp]; rfl)
  have hold : ∀ {u : Fin N} {p : MessageId B × H}, s.pending u = some p →
      Function.update s.pending t (some (mid, handler)) u = some p :=
    fun hu => Table.update_of_free hidle hu _
  have hnotified : ∀ {mid'}, s.notify.mid? = some mid' → mid' ≠ mid := by
    intro mid' hn heq
    exact hplaces .notified (Option.mem_toList.mpr (heq ▸ hn))
  have hrest : ∀ p, p ≠ .queue → (s.pushed t mid handler c).ids p = s.ids p := ids_pushed hout hsent
  refine { hinv with
    custody  := hinv.custody.receive (i := (.queue : Place B)) hplaces (Set.notMem_empty mid) hqueue hrest
    waits := ?waits, registered := ?registered, pendings := ?pendings, alone := ?alone, entries := ?entries
    looked := ?looked, found := ?found, due := ?due
    answers  := hinv.answers.trans hreported.symm }
  case waits =>
    -- the new message waits with its own handler, the others with theirs
    intro p mid' hmid'
    change (Function.update s.waiting mid (some handler) mid').isSome = true
    by_cases heq : mid' = mid
    · rw [heq, Function.update_self]
      rfl
    · rw [Function.update_of_ne heq]
      by_cases hp : p = .queue
      · rw [hp] at hmid'
        rcases List.mem_cons.mp (hqueue.mem_iff.mp hmid') with h | h
        · exact absurd h heq
        · exact hinv.waits .queue mid' h
      · rw [hrest p hp] at hmid'
        exact hinv.waits p mid' hmid'
  case registered =>
    intro mid' h hw
    change Function.update s.waiting mid (some handler) mid' = some h at hw
    by_cases heq : mid' = mid
    · rw [heq, Function.update_self] at hw
      cases hw
      exact .inr ⟨t, by rw [heq]; exact Function.update_self ..⟩
    · rw [Function.update_of_ne heq] at hw
      exact (hinv.registered mid' h hw).imp_right (fun ⟨u, hu⟩ => ⟨u, hold hu⟩)
  case pendings =>
    intro u mid' h hu
    change Function.update s.waiting mid (some handler) mid' = some h
    rcases hnew hu with ⟨-, heq⟩ | ⟨hne, hu⟩
    · cases heq
      exact Function.update_self ..
    · rw [Function.update_of_ne hne]
      exact hinv.pendings u mid' h hu
  case alone =>
    intro u v mid' h₁ h₂ hu hv
    rcases hnew hu with ⟨hut, heq⟩ | ⟨hne, hu⟩ <;> rcases hnew hv with ⟨hvt, heq'⟩ | ⟨hne', hv⟩
    · rw [hut, hvt]
    · exact absurd (congrArg Prod.fst heq) hne'
    · exact absurd (congrArg Prod.fst heq') hne
    · exact hinv.alone u v mid' h₁ h₂ hu hv
  case entries =>
    intro mid' h he
    by_cases heq : mid' = mid
    · exact .inr ⟨t, by rw [heq]; exact congrArg _ (Function.update_self ..)⟩
    · rcases hinv.entries mid' h he with hw | ⟨u, hu⟩
      · exact .inl ((Function.update_of_ne heq _ _).trans hw)
      · obtain ⟨q, hq, hqmid⟩ := Option.map_eq_some_iff.mp hu
        exact .inr ⟨u, by rw [← hqmid]; exact congrArg _ (hold hq)⟩
  case looked =>
    -- a notification that has looked its handler up is about another identifier: the new one is not in flight
    intro mid' hn hne u hu
    obtain ⟨q, hq, hqmid⟩ := Option.map_eq_some_iff.mp hu
    rcases hnew hq with ⟨-, heq⟩ | ⟨-, hq⟩
    · exact hnotified hn (by rw [← hqmid, heq])
    · exact hinv.looked mid' hn hne u (by rw [hq, ← hqmid]; rfl)
  case found =>
    intro mid' h hn
    change s.notify = .call mid' h at hn
    rw [hinv.found mid' h hn]
    exact (Function.update_of_ne (hnotified (by rw [hn]; rfl)) _ _).symm
  case due =>
    rw [owed_pushed hnotified]
    exact hinv.due

/-- **A handler is registered.** -/
theorem Inv.register {t : Fin N} (hinv : s.Inv) (h : step conf s (.register t) = some s') : s'.Inv := by
  rw [step] at h
  split at h
  · cases h
  next mid handler hpending =>
  cases h
  -- the handler was set to wait when the message was pushed, so the entry says what is waited for
  have hwaiting := hinv.pendings t mid handler hpending
  refine { hinv with
    registered := ?registered, pendings := ?pendings, alone := ?alone, entries := ?entries, looked := ?looked }
  case registered =>
    -- what waits was registered before, or by this thread now
    intro mid' h' hw
    rw [Table.getElem?_insert]
    by_cases hmid : mid = mid'
    · subst hmid
      rw [if_pos rfl]
      exact .inl (hwaiting.symm.trans hw)
    · rw [if_neg hmid]
      refine (hinv.registered mid' h' hw).imp_right (fun ⟨u, hu⟩ => ⟨u, ?_⟩)
      have hut : u ≠ t := fun hut => by
        rw [hut, hpending] at hu
        cases hu
        exact hmid rfl
      exact (Function.update_of_ne hut _ _).trans hu
  case pendings =>
    intro u mid' h' hu
    exact hinv.pendings u mid' h' (Table.of_update_none hu).2
  case alone =>
    intro u v mid' h₁ h₂ hu hv
    exact hinv.alone u v mid' h₁ h₂ (Table.of_update_none hu).2 (Table.of_update_none hv).2
  case entries =>
    intro mid' h' he
    rw [Table.getElem?_insert] at he
    by_cases hmid : mid = mid'
    · subst hmid
      rw [if_pos rfl] at he
      cases he
      exact .inl hwaiting
    · rw [if_neg hmid] at he
      refine (hinv.entries mid' h' he).imp_right (fun ⟨u, hu⟩ => ⟨u, ?_⟩)
      have hut : u ≠ t := fun hut => by
        rw [hut, hpending] at hu
        exact hmid (Option.some.inj hu)
      exact (congrArg (Option.map Prod.fst) (Function.update_of_ne hut _ _)).trans hu
  case looked =>
    intro mid' hn hne u hu
    obtain ⟨p, hp, hpmid⟩ := Option.map_eq_some_iff.mp hu
    exact hinv.looked mid' hn hne u (by rw [(Table.of_update_none hp).2, ← hpmid]; rfl)

/-- **A message is sent**, as far as the push. -/
theorem Inv.send {t : Fin N} {m : BinMessage B} {handler : H} (hinv : s.Inv)
    (hkeep : s.KeepsHandlers conf (.send t m handler)) (h : step conf s (.send t m handler) = some s') :
    s'.Inv := by
  have hdrawn : ((Comm.drawMid conf m s.comm).2).reported = s.comm.reported := by
    rcases @Comm.drawMid_snd B conf m s.comm with hd | hd <;> rw [hd]
    exact Comm.reported_event (e := .drawn s.comm.newMid.1) rfl rfl
  have hdraw : (Comm.drawMid conf m s.comm).2.prepearedMQueue = s.comm.prepearedMQueue
      ∧ (Comm.drawMid conf m s.comm).2.outBuffers = s.comm.outBuffers
      ∧ (Comm.drawMid conf m s.comm).2.sentMessages = s.comm.sentMessages := by
    rcases @Comm.drawMid_snd B conf m s.comm with hd | hd <;> rw [hd] <;> exact ⟨rfl, rfl, rfl⟩
  rw [step] at h
  split at h
  · cases h
  next hidle =>
  rcases Comm.prepareToWrite_cases conf m s.comm with ⟨e, hp, -⟩ | ⟨out, -, -, hp⟩ <;> rw [hp] at h <;> cases h
  · exact hinv.of_still hdraw.1 hdraw.2.1 hdraw.2.2 hdrawn
  · rw [KeepsHandlers, hp] at hkeep
    refine hinv.push hidle hkeep ?_ hdraw.2.1 hdraw.2.2 ?_
    · rw [← hdraw.1]
      exact (PriorityQueue.push_perm ..).map _
    · exact (Comm.reported_event rfl rfl).trans hdrawn

/-- **A notification begins**: its message has a handler that waits. -/
theorem Inv.take {ch : Choice B} (hinv : s.Inv) (h : step conf s (.take ch) = some s') : s'.Inv := by
  obtain ⟨it, sent, hidle, hsent, hs'⟩ : ∃ it sent, s.notify = .idle ∧ s.comm.sentMessages = it :: sent
      ∧ s' = { s with
        comm   := (s.comm.regSent conf ch it sent).log [.messageSent it.mid]
        notify := .find it.mid
        due    := s.due ++ ((s.waiting it.mid).map (fun h => (it.mid, h))).toList } := by
    rw [step] at h
    split at h
    · split at h <;> cases h
      exact ⟨_, _, ‹_›, ‹_›, rfl⟩
    · cases h
  obtain ⟨hqueue, hout⟩ : (s.comm.regSent conf ch it sent).prepearedMQueue = s.comm.prepearedMQueue
      ∧ (s.comm.regSent conf ch it sent).outBuffers = s.comm.outBuffers := by
    rw [Comm.regSent]
    split <;> exact ⟨rfl, rfl⟩
  -- the identifier moves from the sent ones to the one notified, and nothing else moves
  have hleave : (s.ids .sent).Perm (it.mid :: s'.ids .sent) := by
    rw [hs', ids, ids, hsent]
    exact List.Perm.refl _
  have harrive : (s'.ids .notified).Perm (it.mid :: s.ids .notified) := by
    rw [hs', ids, ids, hidle]
    exact List.Perm.refl _
  have hrest : ∀ p, p ≠ .sent → p ≠ .notified → s'.ids p = s.ids p := by
    intro p hp hp'
    rw [hs']
    cases p with
    | queue => exact congrArg _ hqueue
    | out k =>
        exact congrArg (fun out : ExtTreeMap (MessageId B) _ compare => (out[k]?.map PrepearedMessage.id).toList) hout
    | sent => exact absurd rfl hp
    | notified => exact absurd rfl hp'
  have hwaits : (s.waiting it.mid).isSome = true := hinv.waits .sent it.mid (hleave.mem_iff.mpr List.mem_cons_self)
  have hcustody := hinv.custody.move (fun hp => by cases hp) hleave harrive hrest
  have hsub : ∀ p mid, mid ∈ s'.ids p → ∃ q, mid ∈ s.ids q :=
    fun _ _ hmid => Custody.exists_mem_of_move hleave harrive hrest hmid
  -- between notifications no call is owed, so all that was due was called
  have hdue : s.due = s.called := by
    rw [hinv.due, owed, hidle]
    exact List.append_nil _
  obtain ⟨handler, hhandler⟩ := Option.isSome_iff_exists.mp hwaits
  subst hs'
  refine { hinv with
    custody  := hcustody
    waits := ?waits, looked := ?looked, due := ?due, answers := ?answers
    found    := fun _ _ hn => by cases hn }
  case waits =>
    intro p mid hmid
    obtain ⟨q, hq⟩ := hsub p mid hmid
    exact hinv.waits q mid hq
  case looked =>
    intro mid hn hne
    cases hn
    exact absurd rfl hne
  case due =>
    exact congrArg (· ++ _) hdue
  case answers =>
    have hreported := @Comm.reported_sent B conf ch s.comm it sent
    rw [hreported, ← hinv.answers, List.map_append, hhandler]
    rfl

/-- Within a notification nothing moves. -/
theorem ids_notify {x : NotifyPos B H} (h : x.mid? = s.notify.mid?) (called : List (MessageId B × H)) :
    ids { s with notify := x, called := called } = s.ids := by
  funext p
  cases p with
  | queue | out | sent => rfl
  | notified => exact congrArg Option.toList h

/-- **The handler is looked up.** -/
theorem Inv.find (hinv : s.Inv) (hkeep : s.KeepsHandlers conf .find) (h : step conf s .find = some s') :
    s'.Inv := by
  rw [step] at h
  split at h <;> cases h
  next mid hn =>
  rw [KeepsHandlers, hn] at hkeep
  have hids : ids { s with notify := .call mid s.sentHandlers[mid]? } = s.ids := ids_notify (by rw [hn]; rfl) s.called
  have hwaits : (s.waiting mid).isSome = true :=
    hinv.waits .notified mid (by rw [ids, hn]; exact List.mem_singleton_self _)
  -- no send has still to register it, so the table is the only place where the handler can be
  have hfound : s.sentHandlers[mid]? = s.waiting mid := by
    obtain ⟨handler, hw⟩ := Option.isSome_iff_exists.mp hwaits
    rcases hinv.registered mid handler hw with hreg | ⟨t, ht⟩
    · rw [hreg, hw]
    · exact absurd (by rw [ht]; rfl) (hkeep t)
  have howed : owed { s with notify := .call mid s.sentHandlers[mid]? } = s.owed := by
    simp only [owed, hn]
  exact { hinv with
    custody := by rw [hids]; exact hinv.custody
    waits   := by rw [hids]; exact hinv.waits
    looked  := fun mid' hn' _ => by
      cases hn'
      exact hkeep
    found   := fun mid' handler hc => by
      cases hc
      exact hfound
    due     := by rw [howed]; exact hinv.due }

/-- **It is called.** -/
theorem Inv.call (hinv : s.Inv) (h : step conf s .call = some s') : s'.Inv := by
  rw [step] at h
  split at h <;> cases h
  next mid handler hn =>
  have hids : ids { s with
        notify := .unregister mid, called := s.called ++ (handler.map (fun h => (mid, h))).toList } = s.ids :=
    ids_notify (by rw [hn]; rfl) _
  refine { hinv with
    custody := by rw [hids]; exact hinv.custody
    waits   := by rw [hids]; exact hinv.waits
    looked  := ?looked, due := ?due
    found   := fun _ _ hc => by cases hc }
  case looked =>
    intro mid' hn' hne
    cases hn'
    exact hinv.looked mid (by rw [hn]; rfl) (by rw [hn]; exact fun h => by cases h)
  case due =>
    have howed : s.owed = (handler.map (fun h => (mid, h))).toList := by
      rw [hinv.found mid handler hn]
      simp only [owed, hn]
    change s.due = (s.called ++ _) ++ []
    rw [List.append_nil, ← howed]
    exact hinv.due

/-- **The entry is erased**, and nothing waits for the message any more. -/
theorem Inv.unregister (hinv : s.Inv) (h : step conf s .unregister = some s') : s'.Inv := by
  obtain ⟨mid, hn, hs'⟩ : ∃ mid, s.notify = .unregister mid ∧ s' = { s with
      sentHandlers := s.sentHandlers.erase mid
      notify       := .idle
      waiting      := Function.update s.waiting mid none } := by
    rw [step] at h
    split at h <;> cases h
    exact ⟨_, ‹_›, rfl⟩
  have hnowhere : ∀ t h, s.pending t ≠ some (mid, h) := by
    intro t h ht
    exact hinv.looked mid (by rw [hn]; rfl) (by rw [hn]; exact fun h => by cases h) t (by rw [ht]; rfl)
  have hleave : (s.ids .notified).Perm (mid :: s'.ids .notified) := by
    rw [hs', ids, ids, hn]
    exact List.Perm.refl _
  have hrest : ∀ p, p ≠ .notified → s'.ids p = s.ids p := by
    intro p hp
    rw [hs']
    cases p with
    | queue | out | sent => rfl
    | notified => exact absurd rfl hp
  obtain ⟨hcustody, hgone⟩ := hinv.custody.release hleave hrest
  have hsub : ∀ p mid', mid' ∈ s'.ids p → ∃ q, mid' ∈ s.ids q :=
    fun _ _ hmid => Custody.exists_mem_of_release hleave hrest hmid
  subst hs'
  refine { hinv with
    custody := hcustody
    waits := ?waits, registered := ?registered, pendings := ?pendings, entries := ?entries, due := ?due
    looked  := fun _ hn' => by cases hn'
    found   := fun _ _ hn' => by cases hn' }
  case waits =>
    intro p mid' hmid'
    have hne : mid' ≠ mid := fun hmid => hgone p (hmid ▸ hmid')
    obtain ⟨q, hq⟩ := hsub p mid' hmid'
    change (Function.update s.waiting mid none mid').isSome = true
    rw [Function.update_of_ne hne]
    exact hinv.waits q mid' hq
  case registered =>
    intro mid' h hw
    obtain ⟨hne, hw⟩ := Table.of_update_none hw
    rw [Table.getElem?_erase, if_neg (Ne.symm hne)]
    exact hinv.registered mid' h hw
  case pendings =>
    intro t mid' h ht
    have hne : mid' ≠ mid := fun hmid => hnowhere t h (hmid ▸ ht)
    exact (Function.update_of_ne hne _ _).trans (hinv.pendings t mid' h ht)
  case entries =>
    intro mid' h he
    rw [Table.getElem?_erase] at he
    split at he
    · cases he
    · -- what is left in the table belongs to other messages
      next hne => exact (hinv.entries mid' h he).imp_left (Function.update_of_ne (Ne.symm hne) _ _).trans
  case due =>
    have howed : s.owed = [] := by
      simp only [owed, hn]
    have hdue := hinv.due
    rw [howed] at hdue
    exact hdue

/-! ## Runs -/

theorem Inv.step {a : Act B N H} (hinv : s.Inv) (hkeep : s.KeepsHandlers conf a)
    (h : HandlerSystem.step conf s a = some s') : s'.Inv := by
  cases a with
  | send t m handler => exact hinv.send hkeep h
  | register t => exact hinv.register h
  | env e =>
      rw [HandlerSystem.step] at h
      split at h
      · next hadmits =>
          obtain ⟨c, hc, rfl⟩ := Option.map_eq_some_iff.mp h
          exact hinv.env (fun m he => by rw [he] at hadmits; cases hadmits) hc
      · cases h
  | connect ch =>
      rw [HandlerSystem.step] at h
      split at h <;> cases h
      exact hinv.connect
  | startWrite =>
      rw [HandlerSystem.step] at h
      split at h
      · obtain ⟨m, hm, rfl⟩ := Option.map_eq_some_iff.mp h
        exact hinv.startWrite hm
      · cases h
  | take ch => exact hinv.take h
  | find => exact hinv.find hkeep h
  | call => exact hinv.call h
  | unregister => exact hinv.unregister h

theorem inv_run {id : CommId} {as : List (Act B N H)}
    (hg : Machine.Guarded (HandlerSystem.step conf) (KeepsHandlers conf) (HandlerSystem.init id) as)
    (h : Machine.run (HandlerSystem.step conf) (HandlerSystem.init id) as = some s) : s.Inv :=
  Machine.run_guarded_invariant Inv (fun _ _ _ hi hkeep hs => hi.step hkeep hs) as _ _ (.init id) hg h

/-- **An entry has a message on its way.** -/
theorem Inv.sentHandlers_eq_none (hinv : s.Inv) {mid : MessageId B} (hw : s.waiting mid = none) :
    s.sentHandlers[mid]? = none := by
  by_contra hentry
  obtain ⟨handler, hhandler⟩ := Option.ne_none_iff_exists'.mp hentry
  rcases hinv.entries mid handler hhandler with h | ⟨t, ht⟩
  · rw [hw] at h
    cases h
  · obtain ⟨p, hp, rfl⟩ := Option.map_eq_some_iff.mp ht
    have hpending := hinv.pendings t p.1 p.2 hp
    rw [hw] at hpending
    cases hpending

/-- A handler that is looked up too early is registered after its message was notified, and stays. -/
theorem run_missed {t : Fin N} {mid : MessageId B} {handler : H} (hn : s.notify = .find mid)
    (ht : s.pending t = some (mid, handler)) :
    ∃ s', Machine.run (HandlerSystem.step conf) s [.find, .call, .unregister, .register t] = some s'
      ∧ s'.notify = .idle ∧ s'.waiting mid = none ∧ s'.sentHandlers[mid]? = some handler := by
  have hrun : Machine.run (HandlerSystem.step conf) s [.find, .call, .unregister, .register t] = some { s with
      sentHandlers := (s.sentHandlers.erase mid).insert mid handler
      pending      := Function.update s.pending t none
      notify       := .idle
      waiting      := Function.update s.waiting mid none
      called       := s.called ++ ((s.sentHandlers[mid]?).map (fun h => (mid, h))).toList } := by
    simp only [Machine.run, HandlerSystem.step, hn, ht, Option.bind_some]
  exact ⟨_, hrun, rfl, Function.update_self .., Std.ExtTreeMap.getElem?_insert_self⟩

/-- **The handler of every notified message is called once, and leaves no entry**, when every step keeps the
    handlers: the calls that are owed are made in their order, one for each notification, all of them whenever
    nothing is being notified, and an entry belongs to a message that is still on its way. And a look-up before
    the registration is followed by steps that leave the entry behind. -/
theorem handlers_called_once (conf : Config B) (id : CommId) (as : List (Act B N H)) (s : HandlerSystem B N H)
    (hg : Machine.Guarded (HandlerSystem.step conf) (KeepsHandlers conf) (HandlerSystem.init id) as)
    (h : Machine.run (HandlerSystem.step conf) (HandlerSystem.init id) as = some s) :
    (s.due.map Prod.fst = s.comm.reported
        ∧ s.called <+: s.due
        ∧ (s.notify = .idle → s.called = s.due)
        ∧ ∀ mid, s.waiting mid = none → s.sentHandlers[mid]? = none)
      ∧ ∀ mid, s.notify = .find mid → ¬ s.KeepsHandlers conf .find →
          ∃ t s' handler, Machine.run (HandlerSystem.step conf) s [.find, .call, .unregister, .register t] = some s'
            ∧ s'.notify = .idle ∧ s'.waiting mid = none ∧ s'.sentHandlers[mid]? = some handler := by
  have hinv : s.Inv := inv_run hg h
  refine ⟨⟨hinv.answers, ⟨s.owed, hinv.due.symm⟩, fun hidle => ?_, fun mid => hinv.sentHandlers_eq_none⟩,
    fun mid hn hbad => ?_⟩
  · rw [hinv.due, owed, hidle]
    exact (List.append_nil _).symm
  · rw [KeepsHandlers, hn] at hbad
    obtain ⟨t, ht⟩ := not_forall.mp hbad
    obtain ⟨p, hp, rfl⟩ := Option.map_eq_some_iff.mp (not_not.mp ht)
    obtain ⟨s', hrun, hleft⟩ := @run_missed B N H conf s t p.1 p.2 hn hp
    exact ⟨t, s', p.2, hrun, hleft⟩

/-- Thread `t` sends a message, and its write completes. -/
def sentOne (t : Fin N) : List (Act .lp64 N Unit) :=
  [.env .connectSuccess, .connect .plain, .send t ⟨[0x61], 0, 0, 0, []⟩ (), .startWrite, .env (.writeSome 0 13),
    .env (.writeDone 0)]

/-- Then the handler is registered, and the message notified. -/
def registeredInTime (t : Fin N) : List (Act .lp64 N Unit) :=
  sentOne t ++ [.register t, .take .plain, .find, .call, .unregister]

theorem handlers_called_once_registeredInTime : ∃ s : HandlerSystem .lp64 1 Unit,
    Machine.run (HandlerSystem.step { Config.plain with useUniqueMessageId := true }) (HandlerSystem.init 1)
        (registeredInTime 0) = some s
      ∧ s.due = [(1, ())] ∧ s.called = s.due := by
  have hrun : ∃ s : HandlerSystem .lp64 1 Unit,
      Machine.run (HandlerSystem.step { Config.plain with useUniqueMessageId := true }) (HandlerSystem.init 1)
          (registeredInTime 0) = some s
        ∧ s.notify = .idle ∧ s.due = [(1, ())] := ⟨_, rfl, rfl, by decide +kernel⟩
  obtain ⟨s, hs, hidle, hdue⟩ := hrun
  exact ⟨s, hs, hdue, (handlers_called_once { Config.plain with useUniqueMessageId := true } 1 (registeredInTime 0) s
    (by decide +kernel) hs).1.2.2.1 hidle⟩

/-- **The notification overtakes the registration**: the handler is not called, and its entry stays. -/
theorem handler_missed : ∃ s : HandlerSystem .lp64 1 Unit,
    Machine.run (HandlerSystem.step { Config.plain with useUniqueMessageId := true }) (HandlerSystem.init 1)
        (sentOne 0 ++ [.take .plain, .find, .call, .unregister, .register 0]) = some s
      ∧ s.notify = .idle ∧ s.comm.reported = [1] ∧ s.pending 0 = none ∧ s.called = []
      ∧ s.sentHandlers[(1 : MessageId .lp64)]? = some () :=
  ⟨_, rfl, rfl, by decide +kernel, rfl, by decide +kernel, by decide +kernel⟩

end HandlerSystem

end Unicomm
