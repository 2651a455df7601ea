import Unicomm.Lib.Machine
import Unicomm.Comm.Effects

/-!
# `Comm.System` — one communicator, its processing thread and everything around it

A `System` is a communicator together with the position of the thread that is inside `mt_process` (the lock
`_this_mutex` lets at most one be there). A run is any sequence of the atomic steps of that thread and of the
**environment**: application threads sending, Asio transferring bytes and completing operations.

Of Asio the model assumes what it documents. A write is a series of partial transfers, each a non-empty prefix
of what the operation has left, and the transfers of different operations come in any order; a completion
handler runs once, with success only when nothing is left. The read handler appends, then sets the flag and
starts the next read.
-/

namespace Unicomm

variable {B : Build}

/-- The atomic steps of the environment. -/
inductive EnvAct (B : Build) where
  | send (m : BinMessage B)
  /-- The accept or connect completed: `just_connected(true)`. -/
  | connectSuccess
  /-- The handshake completed, with an error code or zero. -/
  | handshake (error : Nat)
  | readAppend (bytes : Str)
  | readUpdated
  | readFail (error : Nat)
  /-- Write `i` transfers `n` bytes. -/
  | writeSome (i n : Nat)
  | writeDone (i : Nat)
  | writeFail (i error : Nat)
  | disconnect
  deriving DecidableEq

namespace Comm

variable (conf : Config B)

/-- Write operation `i`, if its completion handler is still to run. -/
def pendingWrite (c : Comm B) (i : Nat) : Option (AsyncWrite B) :=
  c.socket.writes[i]?.filter (·.pending)

/-- Replace write operation `i`. -/
def setWrite (i : Nat) (w : AsyncWrite B) (c : Comm B) : Comm B :=
  { c with socket := { c.socket with writes := c.socket.writes.set i w } }

/-- One step of the environment; `none` when it is not possible. -/
def envStep (c : Comm B) : EnvAct B → Option (Comm B)
  | .send m => some (c.prepareToWrite conf m).comm
  | .connectSuccess =>
      if c.connectPending then some { c with justConnected := true, connectPending := false } else none
  | .handshake error =>
      if c.connectPending then
        some { c with
          handshakeError := error, justConnected := c.justConnected || error == 0, connectPending := false }
      else none
  | .readAppend bytes =>
      if 0 < c.socket.reads ∧ c.inReadHandler = false then
        some { c with
          readError     := 0
          inBuffer      := c.inBuffer ++ bytes
          inReadHandler := true
          socket        := { c.socket with reads := c.socket.reads - 1 } }
      else none
  | .readUpdated =>
      if c.inReadHandler then some (mtStartRead { c with inBufferUpdated := true, inReadHandler := false })
      else none
  | .readFail error =>
      if 0 < c.socket.reads ∧ c.inReadHandler = false ∧ error ≠ 0 then
        some { c with readError := error, socket := { c.socket with reads := c.socket.reads - 1 } }
      else none
  | .writeSome i n =>
      match c.pendingWrite i with
      | some w =>
          if 0 < n ∧ n ≤ w.rest.length then
            let c := c.setWrite i { w with rest := w.rest.drop n }
            some { c with socket := { c.socket with stream := c.socket.stream ++ w.rest.take n } }
          else none
      | none   => none
  | .writeDone i =>
      match c.pendingWrite i with
      | some w =>
          if w.rest = [] then some ((c.setWrite i { w with pending := false }).mtAsioWriteHandler 0 w.intMid)
          else none
      | none   => none
  | .writeFail i error =>
      match c.pendingWrite i with
      | some w =>
          if error ≠ 0 then some ((c.setWrite i { w with pending := false }).mtAsioWriteHandler error w.intMid)
          else none
      | none   => none
  | .disconnect => some c.disconnect

end Comm

/-- A communicator and the thread inside its `mt_process`, if there is one. -/
structure System (B : Build) where
  comm : Comm B
  proc : Option (Comm.Stage B)

namespace System

variable (conf : Config B)

/-- The atomic steps of a system. -/
inductive Act (B : Build) where
  | env (a : EnvAct B)
  /-- A thread enters `mt_process`. -/
  | enter
  /-- The thread inside performs its next stage. -/
  | stage (ch : Choice B)

/-- Where the thread stands after a stage; an exception leaves `mt_process`. -/
def afterStage : Comm.Next B → Option (Comm.Stage B)
  | .goto s   => some s
  | .done     => none
  | .raised _ => none

/-- One step of the system. -/
def step (s : System B) : Act B → Option (System B)
  | .env a    => (s.comm.envStep conf a).map (fun c => { s with comm := c })
  | .enter    =>
      match s.proc with
      | none   => some { s with proc := some .connect }
      | some _ => none
  | .stage ch =>
      match s.proc with
      | none    => none
      | some st =>
          let r := Comm.runStage conf ch st s.comm
          some ⟨r.1, afterStage r.2⟩

/-- A freshly accepted or connected communicator. -/
def init (id : CommId) : System B := ⟨Comm.create id, none⟩

/-- **What a step does**: an environment step, entering, writing the message that was copied, or a stage made
    of effects, which may end in copying the front of the queue. -/
theorem step_cases {s s' : System B} {a : Act B} (hinv : s.comm.SessionInv) (h : step conf s a = some s') :
    (∃ e c, a = .env e ∧ s.comm.envStep conf e = some c ∧ s' = { s with comm := c })
      ∨ (a = .enter ∧ s.proc = none ∧ s' = { s with proc := some .connect })
      ∨ (∃ ch m, a = .stage ch ∧ s.proc = some (.popping m) ∧ s' = ⟨s.comm.popAndWrite m, some .write⟩)
      ∨ (∃ ch st, a = .stage ch ∧ s.proc = some st ∧ (∀ m, st ≠ .popping m)
          ∧ Comm.Effects conf ch s.comm s'.comm
          ∧ (∀ m, s'.proc = some (.popping m) → s'.comm = s.comm ∧ s.comm.frontCopy = some m)) := by
  cases a with
  | env e =>
      obtain ⟨c, hc, rfl⟩ := Option.map_eq_some_iff.mp h
      exact .inl ⟨e, c, rfl, hc, rfl⟩
  | enter =>
      rw [step] at h
      split at h
      · next hnone => cases h; exact .inr (.inl ⟨rfl, hnone, rfl⟩)
      · cases h
  | stage ch =>
      rw [step] at h
      split at h
      · cases h
      · next st hst =>
          cases h
          by_cases hpop : ∃ m, st = .popping m
          · obtain ⟨m, rfl⟩ := hpop
            exact .inr (.inr (.inl ⟨ch, m, rfl, hst, rfl⟩))
          · have hst' : ∀ m, st ≠ .popping m := fun m hm => hpop ⟨m, hm⟩
            refine .inr (.inr (.inr ⟨ch, st, rfl, hst, hst', Comm.runStage_effects hinv hst', ?_⟩))
            intro m hm
            have hnext : (Comm.runStage conf ch st s.comm).2 = .goto (.popping m) := by
              cases hn : (Comm.runStage conf ch st s.comm).2 <;> rw [hn] at hm <;> cases hm
              rfl
            exact (Comm.runStage_goto_popping hnext).2

end System

/-! ## The session invariant in a system -/

namespace Comm

variable {conf : Config B}

theorem SessionInv.create (id : CommId) : (Comm.create id : Comm B).SessionInv :=
  ⟨fun _ => rfl, fun _ => rfl, fun _ => rfl, fun _ => rfl⟩

/-- The events a step of the environment can record, sends apart: failed writes. -/
def OnlyFailures (c c' : Comm B) : Prop :=
  ∃ mids : List (MessageId B), c'.history = c.history ++ mids.map .writeFailed

theorem OnlyFailures.of_eq {c c' : Comm B} (h : c'.history = c.history) : OnlyFailures c c' :=
  ⟨[], by rw [h, List.map_nil, List.append_nil]⟩

/-- Failed writes leave everything else the history says as it was. -/
theorem OnlyFailures.filterMap_eq {β : Type} {f : Event B → Option β} {c c' : Comm B} (h : OnlyFailures c c')
    (hf : ∀ mid, f (.writeFailed mid) = none) : c'.history.filterMap f = c.history.filterMap f := by
  obtain ⟨mids, hh⟩ := h
  have hnone : mids.filterMap (f ∘ .writeFailed) = [] := List.filterMap_eq_nil_iff.mpr (fun mid _ => hf mid)
  rw [hh, List.filterMap_append, List.filterMap_map, hnone, List.append_nil]

/-- A completion handler leaves the session, the queue and the timeouts alone. -/
theorem mtAsioWriteHandler_frame (error : Nat) (intMid : MessageId B) (c : Comm B) :
    (c.mtAsioWriteHandler error intMid).userSession = c.userSession
      ∧ (c.mtAsioWriteHandler error intMid).prepearedMQueue = c.prepearedMQueue
      ∧ (c.mtAsioWriteHandler error intMid).mesTimeouts = c.mesTimeouts
      ∧ OnlyFailures c (c.mtAsioWriteHandler error intMid) := by
  rw [mtAsioWriteHandler]
  simp only
  split
  · exact ⟨rfl, rfl, rfl, (c.outBuffers[intMid]?.map (·.id)).toList, by cases c.outBuffers[intMid]? <;> rfl⟩
  · rw [mtRegSentMessage]
    split <;> exact ⟨rfl, rfl, rfl, .of_eq rfl⟩

/-- A step of the environment is a send, or it is none. -/
theorem envStep_cases {c c' : Comm B} {e : EnvAct B} (h : c.envStep conf e = some c') :
    (∃ m, e = .send m ∧ c' = (c.prepareToWrite conf m).comm) ∨ ∀ m, e ≠ .send m := by
  cases e with
  | send m =>
      cases h
      exact .inl ⟨m, rfl, rfl⟩
  | connectSuccess | handshake | readAppend | readUpdated | readFail | writeSome | writeDone | writeFail
  | disconnect => exact .inr (fun m hm => by cases hm)

/-- An environment step other than a send leaves the session, the queue and the timeouts alone. -/
theorem envStep_frame {c c' : Comm B} {e : EnvAct B} (h : c.envStep conf e = some c')
    (he : ∀ m, e ≠ .send m) :
    c'.userSession = c.userSession ∧ c'.prepearedMQueue = c.prepearedMQueue
      ∧ c'.mesTimeouts = c.mesTimeouts ∧ OnlyFailures c c' := by
  cases e with
  | send m => exact absurd rfl (he m)
  | connectSuccess | handshake error | readAppend bytes | readUpdated | readFail error =>
      rw [envStep] at h
      split at h <;> cases h
      exact ⟨rfl, rfl, rfl, .of_eq rfl⟩
  | writeSome i n =>
      rw [envStep] at h
      split at h
      · split at h <;> cases h
        exact ⟨rfl, rfl, rfl, .of_eq rfl⟩
      · cases h
  | writeDone i | writeFail i error =>
      rw [envStep] at h
      split at h
      · next w _ =>
          split at h <;> cases h
          exact mtAsioWriteHandler_frame _ w.intMid (c.setWrite i { w with pending := false })
      · cases h
  | disconnect =>
      rw [envStep] at h
      cases h
      rw [disconnect]
      split <;> exact ⟨rfl, rfl, rfl, .of_eq rfl⟩

theorem mtRegSentMessage_outBuffers (intMid : MessageId B) (c : Comm B) :
    (c.mtRegSentMessage intMid).outBuffers = c.outBuffers := by
  rw [mtRegSentMessage]; split <;> rfl

/-- Whatever the outcome, the buffer of a completed write is erased. -/
theorem mtAsioWriteHandler_outBuffers (error : Nat) (intMid : MessageId B) (c : Comm B) :
    (c.mtAsioWriteHandler error intMid).outBuffers = c.outBuffers.erase intMid := by
  rw [mtAsioWriteHandler]
  simp only
  split
  · rfl
  · rw [mtRegSentMessage_outBuffers]

/-- A write that succeeds is registered as sent if its buffer is still there. -/
theorem mtAsioWriteHandler_sentMessages (error : Nat) (intMid : MessageId B) (c : Comm B) :
    (c.mtAsioWriteHandler error intMid).sentMessages
      = c.sentMessages ++ (if error ≠ 0 then none else c.outBuffers[intMid]?).toList.map
          (fun m => ⟨intMid, m.id, m.name⟩) := by
  rw [mtAsioWriteHandler]
  simp only
  split
  · simp [log]
  · rw [mtRegSentMessage]
    cases c.outBuffers[intMid]? <;> simp

/-- **What becomes of the out buffers and the sent messages** outside the processing thread: a completion
    erases one buffer and, if it is a success, registers its message. -/
theorem envStep_out {c c' : Comm B} {e : EnvAct B} (h : c.envStep conf e = some c') (he : ∀ m, e ≠ .send m) :
    (c'.outBuffers = c.outBuffers ∧ c'.sentMessages = c.sentMessages)
      ∨ ∃ error k, c'.outBuffers = c.outBuffers.erase k
          ∧ c'.sentMessages = c.sentMessages ++ (if error ≠ 0 then none else c.outBuffers[k]?).toList.map
              (fun m => ⟨k, m.id, m.name⟩) := by
  cases e with
  | send m => exact absurd rfl (he m)
  | connectSuccess | handshake error | readAppend bytes | readUpdated | readFail error =>
      rw [envStep] at h
      split at h <;> cases h
      exact .inl ⟨rfl, rfl⟩
  | writeSome i n =>
      rw [envStep] at h
      split at h
      · split at h <;> cases h
        exact .inl ⟨rfl, rfl⟩
      · cases h
  | writeDone i | writeFail i error =>
      rw [envStep] at h
      split at h
      · next w _ =>
          split at h <;> cases h
          exact .inr ⟨_, w.intMid, mtAsioWriteHandler_outBuffers _ _ _, mtAsioWriteHandler_sentMessages _ _ _⟩
      · cases h
  | disconnect =>
      rw [envStep] at h
      cases h
      rw [disconnect]
      split <;> exact .inl ⟨rfl, rfl⟩

theorem SessionInv.send {c : Comm B} (hinv : c.SessionInv) (m : BinMessage B) :
    (c.prepareToWrite conf m).comm.SessionInv := by
  cases hs : c.userSession with
  | true => exact .of_session ((prepareToWrite_userSession m c).trans hs)
  | false =>
      rcases prepareToWrite_cases conf m c with ⟨e, h, _⟩ | ⟨out, hs', _⟩
      · rw [h]
        rcases @drawMid_snd B conf m c with hd | hd <;> rw [hd]
        · exact hinv
        · exact ⟨hinv.queue, hinv.out, hinv.sent, hinv.timeouts⟩
      · rw [hs] at hs'; cases hs'

theorem SessionInv.envStep {c c' : Comm B} {e : EnvAct B} (hinv : c.SessionInv)
    (h : c.envStep conf e = some c') : c'.SessionInv := by
  rcases envStep_cases h with ⟨m, rfl, rfl⟩ | he
  · exact hinv.send m
  · obtain ⟨hs, hq, ht, _⟩ := envStep_frame h he
    cases hsess : c.userSession with
    | true => exact .of_session (by rw [hs, hsess])
    | false =>
        have hout : c'.outBuffers = ∅ ∧ c'.sentMessages = [] := by
          rcases envStep_out h he with ⟨ho, hsent⟩ | ⟨error, k, ho, hsent⟩
          · rw [ho, hsent]
            exact ⟨hinv.out hsess, hinv.sent hsess⟩
          · have hnone : c.outBuffers[k]? = none := by
              rw [hinv.out hsess]; exact Std.ExtTreeMap.getElem?_empty
            rw [ho, hsent, hnone, hinv.out hsess, hinv.sent hsess]
            exact ⟨by simp, by split <;> rfl⟩
        exact ⟨fun _ => by rw [hq, hinv.queue hsess], fun _ => hout.1, fun _ => hout.2,
          fun _ => by rw [ht, hinv.timeouts hsess]⟩

/-- A send keeps what is in the queue. -/
theorem mem_queue_send {c : Comm B} {x : PrepearedMessage B} (m : BinMessage B)
    (hx : x ∈ c.prepearedMQueue) : x ∈ (c.prepareToWrite conf m).comm.prepearedMQueue := by
  have hdraw : (drawMid conf m c).2.prepearedMQueue = c.prepearedMQueue := by
    rw [drawMid]; split <;> rfl
  rcases prepareToWrite_cases conf m c with ⟨e, h, _⟩ | ⟨out, _, _, h⟩ <;> rw [h]
  · simp only [hdraw, hx]
  · simp only [pushPrepearedMessage, log, PriorityQueue.mem_push, hdraw, hx, or_true]

end Comm

/-! ## What holds in every reachable state -/

namespace System

variable {conf : Config B}

/-- The session invariant, and: a message that was copied from the queue is still in it. -/
structure Inv (s : System B) : Prop where
  session : s.comm.SessionInv
  copied  : ∀ m, s.proc = some (.popping m) → m ∈ s.comm.prepearedMQueue

theorem Inv.init (id : CommId) : (System.init id : System B).Inv :=
  ⟨Comm.SessionInv.create id, fun m h => by cases h⟩

theorem Inv.step {s s' : System B} {a : Act B} (hinv : s.Inv) (h : System.step conf s a = some s') : s'.Inv := by
  rcases step_cases conf hinv.session h with ⟨e, c, -, hc, rfl⟩ | ⟨-, -, rfl⟩ | ⟨ch, m, -, hm, rfl⟩
    | ⟨ch, st, -, -, -, heff, hpop⟩
  · refine ⟨hinv.session.envStep hc, fun m hm => ?_⟩
    by_cases hsend : ∃ msg, e = .send msg
    · obtain ⟨msg, rfl⟩ := hsend
      cases hc
      exact Comm.mem_queue_send msg (hinv.copied m hm)
    · have hq := (Comm.envStep_frame hc (fun msg he => hsend ⟨msg, he⟩)).2.1
      simp only [hq, hinv.copied m hm]
  · exact ⟨hinv.session, fun m hm => by cases hm⟩
  · have hsess : s.comm.userSession = true := by
      by_contra hno
      have hq := hinv.session.queue (Bool.eq_false_iff.mpr hno)
      have hmem := hinv.copied m hm
      rw [hq] at hmem
      exact List.not_mem_nil hmem
    exact ⟨.of_session hsess, fun m hm => by cases hm⟩
  · refine ⟨heff.invariant (fun _ _ he hi => hi.effect he) hinv.session, fun m hm => ?_⟩
    obtain ⟨hsame, hfront⟩ := hpop m hm
    rw [hsame]
    exact List.mem_of_head? hfront

/-- Every reachable state of a system satisfies its invariant. -/
theorem Inv.run {id : CommId} {as : List (Act B)} {s : System B}
    (h : Machine.run (System.step conf) (System.init id) as = some s) : s.Inv :=
  Machine.run_invariant Inv (fun _ _ _ hi hs => hi.step hs) as _ _ (Inv.init id) h

end System

end Unicomm
