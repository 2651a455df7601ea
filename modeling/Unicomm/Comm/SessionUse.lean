import Unicomm.Comm.System
import Unicomm.Lib.Family

/-!
# `Comm.SessionUse` — the calls of `user_session()`, one by one

`user_session()` asserts that there is a session and dereferences it. `session()` and `call_after_processed` test
first; `create_user_session`, `call_connected`, `call_message_arrived`, `call_message_sent` and
`call_message_timeout` do not. Here every call is a step of its own, and so is every test, so that whatever the
other threads do can come in between: the sends of any number of threads, the completions of Asio. A handler's own
sends are those of a thread too.

What carries the untested calls is `SessionInv`: without a session the four collections are empty, and a call that
is made for an entry of one of them finds a session. `Relies` names the positions from which such a call is
certain to be made; `session_valid_when_used` says that a thread in one of them has a session.
-/

namespace Unicomm

variable {B : Build}

namespace Comm

/-! ## Positions -/

/-- Where a thread stands inside `send`; `handler` tells whether a message sent handler is to be registered. -/
inductive SendPos (B : Build) where
  /-- `prepare_to_write` was entered. -/
  | start (m : BinMessage B) (handler : Bool)
  /-- `session()`, for the encoder, is to test the session. -/
  | session (m : BinMessage B) (handler : Bool)
  /-- It is to call `user_session()`, and the encoder is to encode the message. -/
  | encode (m : BinMessage B) (handler : Bool)
  | push (p : PrepearedMessage B) (handler : Bool)
  /-- `session()`, for `reg_messsage_sent`, is to test the session. -/
  | registerSession
  /-- It is to call `user_session()`. -/
  | register
  deriving DecidableEq

/-- The calls of `user_session()` by the thread inside `mt_process`. -/
inductive Use (B : Build) where
  /-- At the end of `create_user_session`. -/
  | createUserSession
  | callConnected
  /-- In `session()`, for the decoder. -/
  | decode
  | callMessageArrived (m : BinMessage B) (outMesId : MessageId B)
  | callMessageSent (mid : MessageId B)
  /-- `its` are the entries of `_mes_timeouts` still to come. -/
  | callMessageTimeout (mid : MessageId B) (its : List (MessageId B × MessageTimeoutInfo))
  | callAfterProcessed
  deriving DecidableEq

/-- Where the thread stands inside `mt_process`. -/
inductive Pos (B : Build) where
  | connect
  /-- `create_user_session` is to test the session. -/
  | createUserSession
  /-- It is to call the session factory. -/
  | factory
  /-- `mt_process` is to test `_sent_messages`. -/
  | sent
  /-- The loop of `mt_process_sent`, under `_sent_mes_mutex`. -/
  | sentLoop
  | arrived
  /-- The loop of `mt_process_arrived`. -/
  | decode
  /-- `session()`, for the decoder, is to test the session. -/
  | decodeSession
  | incoming (m : BinMessage B)
  /-- Inside the `send` of an automatic reply. -/
  | reply (p : SendPos B)
  | clearUpdated
  | write
  | popping (m : PrepearedMessage B)
  | timeouts
  /-- The loop of `process_timeouts`. -/
  | timeoutLoop (its : List (MessageId B × MessageTimeoutInfo))
  | errors
  | afterProcessed
  /-- To call `user_session()`. -/
  | call (u : Use B)
  deriving DecidableEq

/-- What a step leads to. -/
inductive After (P : Type) where
  | goto (p : P)
  | returned
  | threw
  /-- `user_session()` was called without a session. -/
  | failed
  deriving DecidableEq

/-- The position after a step; a function that was left has none. -/
def After.pos? {P : Type} : After P → Option P
  | .goto p => some p
  | _       => none

/-! ## Steps -/

section Steps

variable {P : Type} (conf : Config B) (ch : Choice B)

/-- `user_session()`, and what its caller does with the session. -/
def useSession (c : Comm B) (r : Comm B × After P) : Comm B × After P :=
  if c.userSession then r else (c, .failed)

/-- Go on to `p` unless the handler called threw. -/
def afterHandler (p : After P) : After P :=
  match ch.handler 0 with
  | none   => p
  | some _ => .threw

/-- One step inside `send`. -/
def sendStep : SendPos B → Comm B → Comm B × After (SendPos B)
  | .start m handler,   c => ((drawMid conf m c).2, .goto (.session (stamped conf m c) handler))
  | .session m handler, c => (c, if c.userSession then .goto (.encode m handler) else .threw)
  | .encode m handler,  c =>
      c.useSession (c, match conf.messageEncoder.performEncode m with
        | .error _      => .threw
        | .ok outBuffer => .goto (.push ⟨m.id, m.name, m.priority, outBuffer⟩ handler))
  | .push p handler,    c => (c.pushPrepearedMessage p, if handler then .goto .registerSession else .returned)
  | .registerSession,   c => (c, if c.userSession then .goto .register else .threw)
  | .register,          c => c.useSession (c, .returned)

/-- What the thread inside `mt_process` does with the session `user_session()` gives it. The reply of the message
    arrived handler comes with a message sent handler if `handler` is set. -/
def useStep (handler : Bool) : Use B → Comm B → Comm B × After (Pos B)
  | .createUserSession,            c => (c, .goto (.call .callConnected))
  -- the sentry of `handle_connected_success` starts reading however the handler ends
  | .callConnected,                c => ((c.log [.connected]).mtStartRead, afterHandler ch (.goto .sent))
  | .decode,                       c =>
      let r := conf.messageDecoder.performDecode c.inBuffer
      ({ c with inBuffer := r.2 }, match r.1 with
        | .error _     => .threw
        | .ok none     => .goto .clearUpdated
        | .ok (some m) => .goto (.incoming m))
  | .callMessageArrived m outMesId, c =>
      (c.log [.messageArrived m], afterHandler ch (match ch.reply outMesId with
        | none      => .goto .decode
        | some outm => .goto (.reply (.start (makeReply conf outMesId m outm) handler))))
  | .callMessageSent mid,          c => (c.log [.messageSent mid], afterHandler ch (.goto .sentLoop))
  | .callMessageTimeout mid its,   c => (c.log [.messageTimeout mid], afterHandler ch (.goto (.timeoutLoop its)))
  | .callAfterProcessed,           c => (c.log [.afterProcessed], afterHandler ch .returned)

/-- `process_received`, as far as `call_message_arrived`. -/
def receiveStep (m : BinMessage B) (c : Comm B) : Comm B × After (Pos B) :=
  let out := c.offerMid conf
  (out.2, .goto (.call (.callMessageArrived m out.1)))

/-- The step of the reply's `send` as a step of `mt_process`. -/
def After.inReply : After (SendPos B) → After (Pos B)
  | .goto p   => .goto (.reply p)
  | .returned => .goto .decode
  | .threw    => .threw
  | .failed   => .failed

/-- One step inside `mt_process`. -/
def procStep (handler : Bool) : Pos B → Comm B → Comm B × After (Pos B)
  | .connect, c =>
      if c.justConnected then ({ c with justConnected := false, isConnected := true }, .goto .createUserSession)
      else (c, .goto .sent)
  | .createUserSession, c => (c, .goto (if c.userSession then .call .createUserSession else .factory))
  | .factory, c =>
      match callSessionFactory conf ch.ctor with
      | .session => ({ c with userSession := true }, .goto (.call .createUserSession))
      -- the null pointer is stored
      | .null    => ({ c with userSession := false }, .goto (.call .createUserSession))
      | _        => ((c.log [.sessionCtorThrew]).mtStartRead, .threw)
  | .sent, c => (c, .goto (if c.sentMessages.isEmpty then .arrived else .sentLoop))
  | .sentLoop, c =>
      match c.sentMessages with
      | []         => (c, .goto .arrived)
      | it :: sent => (c.regSent conf ch it sent, .goto (.call (.callMessageSent it.mid)))
  | .arrived, c =>
      (c, .goto (if !c.inBuffer.isEmpty && (c.inBufferUpdated && c.userSession) then .decode else .write))
  | .decode, c => (c, .goto (if c.inBufferUpdated && !ch.elapsed then .decodeSession else .write))
  | .decodeSession, c => (c, if c.userSession then .goto (.call .decode) else .threw)
  | .incoming m, c =>
      if m.ridExists then
        match c.mesTimeouts[m.rid]? with
        | none     => (c.log [.discarded m.rid], .goto .decode)
        | some req =>
            if conf.isAllowedReply req.name m.name then receiveStep conf m (c.unregMessageTimeout m.rid)
            else (c, .threw)
      else receiveStep conf m c
  | .reply p, c =>
      let r := sendStep conf p c
      (r.1, r.2.inReply)
  | .clearUpdated, c => ({ c with inBufferUpdated := false }, .goto .decode)
  | .write, c =>
      match c.frontCopy with
      | some m => (c, .goto (if ch.elapsed then .timeouts else .popping m))
      | none   => (c, .goto .timeouts)
  | .popping m, c => (c.popAndWrite m, .goto .write)
  | .timeouts, c => (c, .goto (if conf.timeoutsEnabled then .timeoutLoop c.mesTimeouts.toList else .errors))
  | .timeoutLoop [], c => (c, .goto .errors)
  | .timeoutLoop ((mid, info) :: its), c =>
      if info.tout.elapsed ch.now then (c.unregMessageTimeout mid, .goto (.call (.callMessageTimeout mid its)))
      else (c, .goto (.timeoutLoop its))
  | .errors, c =>
      let r := andThen c.mtHandleHandshakeError mtHandleChError
      (r.2, if r.1.isSome then .threw else .goto .afterProcessed)
  | .afterProcessed, c => (c, if c.userSession then .goto (.call .callAfterProcessed) else .returned)
  | .call u, c => c.useSession (useStep conf ch handler u c)

end Steps

end Comm

/-! ## The system -/

/-- A communicator, the thread inside its `mt_process`, and the threads inside its `send`. -/
structure SessionSystem (B : Build) where
  comm    : Comm B
  proc    : Option (Comm.Pos B)
  senders : Nat → Option (Comm.SendPos B)
  /-- `user_session()` was called without a session. -/
  failed  : Bool

namespace SessionSystem

open Comm

/-- The atomic steps. -/
inductive Act (B : Build) where
  | env (e : EnvAct B)
  /-- A thread enters `mt_process`. -/
  | enter
  | proc (ch : Choice B) (handler : Bool)
  /-- Thread `t` calls `send`. -/
  | beginSend (t : Nat) (m : BinMessage B) (handler : Bool)
  | send (t : Nat)

/-- `_sent_mes_mutex` is held by the thread inside `mt_process`. -/
def holdsSentMes : Option (Pos B) → Bool
  | some .sentLoop                    => true
  | some (.call (.callMessageSent _)) => true
  | _                                 => false

/-- The steps of the environment that are possible: sends are made step by step, and a successful completion waits
    for `_sent_mes_mutex`. -/
def admits (proc : Option (Pos B)) : EnvAct B → Bool
  | .send _      => false
  | .writeDone _ => !holdsSentMes proc
  | _            => true

/-- One step. -/
def step (conf : Config B) (s : SessionSystem B) : Act B → Option (SessionSystem B)
  | .env e => if admits s.proc e then (s.comm.envStep conf e).map (fun c => { s with comm := c }) else none
  | .enter =>
      match s.proc with
      | none   => some { s with proc := some .connect }
      | some _ => none
  | .proc ch handler =>
      match s.proc with
      | none   => none
      | some p =>
          let r := procStep conf ch handler p s.comm
          some { s with comm := r.1, proc := r.2.pos?, failed := s.failed || r.2 == .failed }
  | .beginSend t m handler =>
      match s.senders t with
      | none   => some { s with senders := Function.update s.senders t (some (.start m handler)) }
      | some _ => none
  | .send t =>
      match s.senders t with
      | none   => none
      | some p =>
          let r := sendStep conf p s.comm
          some { s with
            comm    := r.1
            senders := Function.update s.senders t r.2.pos?
            failed  := s.failed || r.2 == .failed }

/-- A freshly accepted or connected communicator. -/
def init (id : CommId) : SessionSystem B := ⟨Comm.create id, none, fun _ => none, false⟩

end SessionSystem

namespace Comm

variable {P : Type} {conf : Config B} {ch : Choice B} {c : Comm B}

/-! ## What a step keeps -/

/-- A position behind a passed test: a call of `user_session()` is due, or was made. -/
def SendPos.Relies : SendPos B → Prop
  | .encode _ _ => True
  | .push _ _   => True
  | .register   => True
  | _           => False

/-- A position from which `user_session()` is called without another test, or after which something is stored that
    calls for one. -/
def Pos.Relies : Pos B → Prop
  | .call _          => True
  | .incoming _      => True
  | .popping _       => True
  | .timeoutLoop its => its ≠ []
  | .reply p         => p.Relies
  | _                => False

/-- The next step of the thread calls `user_session()`. -/
def SendPos.Calls : SendPos B → Prop
  | .encode _ _ => True
  | .register   => True
  | _           => False

/-- The next step of the thread calls `user_session()`. -/
def Pos.Calls : Pos B → Prop
  | .call _  => True
  | .reply p => p.Calls
  | _        => False

theorem SendPos.Calls.relies {p : SendPos B} (h : p.Calls) : p.Relies := by
  cases p with
  | encode m handler => trivial
  | register => trivial
  | _ => exact h.elim

theorem Pos.Calls.relies {p : Pos B} (h : p.Calls) : p.Relies := by
  cases p with
  | call u => trivial
  | reply p => exact SendPos.Calls.relies h
  | _ => exact h.elim

/-- **What a step keeps** when it starts in `c` and ends as `r`: the session invariant, the session itself, and
    that no thread comes to rely on a session that is not there. `user_session()` is not called without one. -/
structure Keeps (relies : P → Prop) (c : Comm B) (r : Comm B × After P) : Prop where
  session : r.1.SessionInv
  valid   : c.userSession = true → r.1.userSession = true
  used    : r.2 ≠ .failed
  next    : ∀ p, r.2 = .goto p → relies p → r.1.userSession = true

variable {relies : P → Prop} {r : Comm B × After P}

/-- With a session there is nothing to keep but the session. -/
theorem Keeps.of_session (h : r.1.userSession = true) (hused : r.2 ≠ .failed) : Keeps relies c r where
  session := .of_session h
  valid   := fun _ => h
  used    := hused
  next    := fun _ _ _ => h

/-- Without one, nothing may come to rely on it. -/
theorem Keeps.of_none (hs : c.userSession = false) (hinv : r.1.SessionInv) (hused : r.2 ≠ .failed)
    (hnext : ∀ p, r.2 = .goto p → ¬ relies p) : Keeps relies c r where
  session := hinv
  valid   := fun h => by rw [hs] at h; cases h
  used    := hused
  next    := fun p hp hrelies => absurd hrelies (hnext p hp)

theorem After.goto_ne (p : P) : After.goto p ≠ .failed := by simp

theorem useSession_of_session (hs : c.userSession = true) (r : Comm B × After P) : c.useSession r = r :=
  if_pos hs

/-! ## With a session -/

theorem afterHandler_ne_failed {p : After P} (h : p ≠ .failed) : afterHandler ch p ≠ .failed := by
  unfold afterHandler
  split
  · exact h
  · simp

theorem inReply_ne_failed {r : After (SendPos B)} (h : r ≠ .failed) : r.inReply ≠ .failed := by
  cases r with
  | failed => exact absurd rfl h
  | goto p => exact After.goto_ne _
  | returned => simp [After.inReply]
  | threw => simp [After.inReply]

theorem sendStep_of_session (conf : Config B) (hs : c.userSession = true) (p : SendPos B) :
    (sendStep conf p c).1.userSession = true ∧ (sendStep conf p c).2 ≠ .failed := by
  cases p with
  | start m handler => exact ⟨drawMid_userSession.trans hs, After.goto_ne _⟩
  | session m handler => exact ⟨hs, by rw [sendStep, hs]; simp⟩
  | encode m handler =>
      rw [sendStep, useSession_of_session hs]
      refine ⟨hs, ?_⟩
      split <;> simp
  | push p handler => exact ⟨hs, by cases handler <;> simp [sendStep]⟩
  | registerSession => exact ⟨hs, by rw [sendStep, hs]; simp⟩
  | register =>
      rw [sendStep, useSession_of_session hs]
      exact ⟨hs, by simp⟩

theorem useStep_of_session (hs : c.userSession = true) (handler : Bool) (u : Use B) :
    (useStep conf ch handler u c).1.userSession = true ∧ (useStep conf ch handler u c).2 ≠ .failed := by
  cases u with
  | createUserSession => exact ⟨hs, After.goto_ne _⟩
  | decode =>
      refine ⟨hs, ?_⟩
      unfold useStep
      simp only
      split <;> simp
  | callMessageArrived m outMesId =>
      refine ⟨hs, afterHandler_ne_failed ?_⟩
      split <;> simp
  | callConnected => exact ⟨hs, afterHandler_ne_failed (by simp)⟩
  | callMessageSent mid => exact ⟨hs, afterHandler_ne_failed (by simp)⟩
  | callMessageTimeout mid its => exact ⟨hs, afterHandler_ne_failed (by simp)⟩
  | callAfterProcessed => exact ⟨hs, afterHandler_ne_failed (by simp)⟩

theorem receiveStep_of_session (hs : c.userSession = true) (m : BinMessage B) :
    (receiveStep conf m c).1.userSession = true ∧ (receiveStep conf m c).2 ≠ .failed :=
  ⟨(offerMid_userSession c).trans hs, After.goto_ne _⟩

/-- The errors do not touch the session. -/
theorem mtProcessErrors_userSession (c : Comm B) :
    (andThen c.mtHandleHandshakeError mtHandleChError).2.userSession = c.userSession := by
  have hch : ∀ d : Comm B, d.mtHandleChError.2.userSession = d.userSession := by
    intro d
    rw [mtHandleChError_snd]
  rw [mtHandleHandshakeError]
  split
  · exact disconnect_userSession _
  · exact hch c

/-- Only the factory itself gives a null pointer. -/
theorem callSessionFactory_ne_null {ctor : CtorOutcome} (h : ctor ≠ .null) : callSessionFactory conf ctor ≠ .null := by
  unfold callSessionFactory
  split
  · exact h
  · simp

/-- **With a session** a step keeps it, and no call fails. -/
theorem procStep_of_session (conf : Config B) (hctor : ch.ctor ≠ .null) (hs : c.userSession = true) (handler : Bool)
    (p : Pos B) :
    (procStep conf ch handler p c).1.userSession = true ∧ (procStep conf ch handler p c).2 ≠ .failed := by
  cases p with
  | connect => rw [procStep]; split <;> exact ⟨hs, by simp⟩
  | createUserSession => exact ⟨hs, After.goto_ne _⟩
  | factory =>
      rw [procStep]
      split
      · exact ⟨rfl, by simp⟩
      -- a factory that keeps its promise returns no null session
      · next hnull => exact absurd hnull (callSessionFactory_ne_null hctor)
      · exact ⟨hs, by simp⟩
  | sent => exact ⟨hs, After.goto_ne _⟩
  | sentLoop =>
      rw [procStep]
      split
      · exact ⟨hs, by simp⟩
      · exact ⟨(regSent_userSession _ _ c).trans hs, by simp⟩
  | arrived => exact ⟨hs, After.goto_ne _⟩
  | decode => exact ⟨hs, After.goto_ne _⟩
  | decodeSession => exact ⟨hs, by rw [procStep, hs]; simp⟩
  | incoming m =>
      rw [procStep]
      split
      · split
        · exact ⟨hs, by simp⟩
        · split
          · exact receiveStep_of_session (c := c.unregMessageTimeout m.rid) hs m
          · exact ⟨hs, by simp⟩
      · exact receiveStep_of_session hs m
  | reply p =>
      obtain ⟨hkeep, hused⟩ := sendStep_of_session conf hs p
      exact ⟨hkeep, inReply_ne_failed hused⟩
  | clearUpdated => exact ⟨hs, After.goto_ne _⟩
  | write => rw [procStep]; split <;> exact ⟨hs, by simp⟩
  | popping m => exact ⟨hs, After.goto_ne _⟩
  | timeouts => exact ⟨hs, After.goto_ne _⟩
  | timeoutLoop its =>
      rcases its with _ | ⟨⟨mid, info⟩, its⟩
      · exact ⟨hs, After.goto_ne _⟩
      · rw [procStep]
        split <;> exact ⟨hs, by simp⟩
  | errors =>
      refine ⟨(mtProcessErrors_userSession c).trans hs, ?_⟩
      rw [procStep]
      split <;> simp
  | afterProcessed => exact ⟨hs, by rw [procStep, hs]; simp⟩
  | call u =>
      rw [procStep, useSession_of_session hs]
      exact useStep_of_session hs handler u

/-! ## Without a session -/

/-- Without a session: on to a position that does not rely on one, -/
theorem Keeps.goto_of_none {d : Comm B} {q : P} (hs : c.userSession = false) (hinv : d.SessionInv)
    (hq : ¬ relies q) : Keeps relies c (d, .goto q) := by
  refine .of_none hs hinv (After.goto_ne q) (fun p hgoto => ?_)
  cases hgoto
  exact hq

/-- or out of the function. -/
theorem Keeps.left_of_none {d : Comm B} {r : After P} (hs : c.userSession = false) (hinv : d.SessionInv)
    (hr : r = .returned ∨ r = .threw) : Keeps relies c (d, r) := by
  rcases hr with rfl | rfl <;> exact .of_none hs hinv (by simp) (by simp)

/-- What changes neither the session nor the collections keeps the invariant. -/
theorem SessionInv.of_same {d : Comm B} (hinv : c.SessionInv) (hs : d.userSession = c.userSession)
    (hq : d.prepearedMQueue = c.prepearedMQueue) (ho : d.outBuffers = c.outBuffers)
    (hsent : d.sentMessages = c.sentMessages) (ht : d.mesTimeouts = c.mesTimeouts) : d.SessionInv where
  queue h    := by rw [hq, hinv.queue (hs ▸ h)]
  out h      := by rw [ho, hinv.out (hs ▸ h)]
  sent h     := by rw [hsent, hinv.sent (hs ▸ h)]
  timeouts h := by rw [ht, hinv.timeouts (hs ▸ h)]

theorem SessionInv.drawMid {m : BinMessage B} (hinv : c.SessionInv) : (drawMid conf m c).2.SessionInv := by
  rcases @drawMid_snd B conf m c with h | h
  · rw [h]
    exact hinv
  · rw [h]
    exact hinv.of_same rfl rfl rfl rfl rfl

/-- **Without a session `send` gets as far as the test.** -/
theorem sendStep_of_none (hs : c.userSession = false) (hinv : c.SessionInv) {p : SendPos B} (hp : ¬ p.Relies) :
    Keeps SendPos.Relies c (sendStep conf p c) := by
  cases p with
  | start m handler => exact .goto_of_none hs hinv.drawMid (fun hrelies => hrelies)
  | session m handler =>
      rw [sendStep, hs]
      exact .left_of_none hs hinv (.inr rfl)
  | registerSession =>
      rw [sendStep, hs]
      exact .left_of_none hs hinv (.inr rfl)
  | encode m handler => exact absurd trivial hp
  | push p handler => exact absurd trivial hp
  | register => exact absurd trivial hp

/-- What a step inside the reply's `send` keeps, one inside `mt_process` keeps. -/
theorem Keeps.inReply {r : Comm B × After (SendPos B)} (h : Keeps SendPos.Relies c r) :
    Keeps Pos.Relies c (r.1, r.2.inReply) where
  session := h.session
  valid   := h.valid
  used    := inReply_ne_failed h.used
  next p hgoto hrelies := by
    cases hr : r.2 with
    | goto q =>
        rw [hr] at hgoto
        cases hgoto
        exact h.next q hr hrelies
    | returned =>
        rw [hr] at hgoto
        cases hgoto
        exact hrelies.elim
    | threw => rw [hr] at hgoto; cases hgoto
    | failed => rw [hr] at hgoto; cases hgoto

/-- **Without a session** the thread inside `mt_process` gets as far as the tests, and to the end of the loops over
    the empty collections; the session factory gives it a session or throws. -/
theorem procStep_of_none (hs : c.userSession = false) (hinv : c.SessionInv) (hctor : ch.ctor ≠ .null)
    (handler : Bool) {p : Pos B} (hp : ¬ p.Relies) : Keeps Pos.Relies c (procStep conf ch handler p c) := by
  cases p with
  | connect =>
      rw [procStep]
      split
      · exact .goto_of_none hs (hinv.of_same rfl rfl rfl rfl rfl) (fun hrelies => hrelies)
      · exact .goto_of_none hs hinv (fun hrelies => hrelies)
  | createUserSession =>
      rw [procStep, hs]
      exact .goto_of_none hs hinv (fun hrelies => hrelies)
  | factory =>
      rw [procStep]
      split
      · exact .of_session rfl (by simp)
      · next hnull => exact absurd hnull (callSessionFactory_ne_null hctor)
      · exact .left_of_none hs (hinv.of_same rfl rfl rfl rfl rfl) (.inr rfl)
  -- the collections are empty without a session, so these loops end before they use it
  | sent =>
      rw [procStep, hinv.sent hs]
      exact .goto_of_none hs hinv (fun hrelies => hrelies)
  | sentLoop =>
      rw [procStep, hinv.sent hs]
      exact .goto_of_none hs hinv (fun hrelies => hrelies)
  | arrived =>
      rw [procStep, hs, Bool.and_false, Bool.and_false]
      exact .goto_of_none hs hinv (fun hrelies => hrelies)
  | decode =>
      rw [procStep]
      split <;> exact .goto_of_none hs hinv (fun hrelies => hrelies)
  -- `mt_perform_decode` tests the session itself, and throws
  | decodeSession =>
      rw [procStep, hs]
      exact .left_of_none hs hinv (.inr rfl)
  | reply p => exact (sendStep_of_none hs hinv hp).inReply
  | clearUpdated => exact .goto_of_none hs (hinv.of_same rfl rfl rfl rfl rfl) (fun hrelies => hrelies)
  | write =>
      rw [procStep, frontCopy, hinv.queue hs]
      exact .goto_of_none hs hinv (fun hrelies => hrelies)
  -- an empty table gives nothing to go over
  | timeouts =>
      rw [procStep, hinv.timeouts hs]
      split
      · exact .goto_of_none hs hinv (fun hrelies => hrelies rfl)
      · exact .goto_of_none hs hinv (fun hrelies => hrelies)
  | timeoutLoop its =>
      rcases its with _ | ⟨⟨mid, info⟩, its⟩
      · exact .goto_of_none hs hinv (fun hrelies => hrelies)
      · exact absurd (List.cons_ne_nil _ _) hp
  | errors =>
      have hsame : (andThen c.mtHandleHandshakeError mtHandleChError).2.SessionInv :=
        (@mtProcessErrors_effects B conf ch c).invariant (fun _ _ he hi => hi.effect he) hinv
      rw [procStep]
      split
      · exact .left_of_none hs hsame (.inr rfl)
      · exact .goto_of_none hs hsame (fun hrelies => hrelies)
  | afterProcessed =>
      rw [procStep, hs]
      exact .left_of_none hs hinv (.inl rfl)
  -- the positions behind a test are not reached
  | incoming m => exact absurd trivial hp
  | popping m => exact absurd trivial hp
  | call u => exact absurd trivial hp

/-- **One step inside `mt_process`** keeps what is to be kept. -/
theorem Keeps.procStep (hinv : c.SessionInv) (hctor : ch.ctor ≠ .null) (handler : Bool) {p : Pos B}
    (hp : p.Relies → c.userSession = true) : Keeps Pos.Relies c (procStep conf ch handler p c) := by
  cases hs : c.userSession with
  | true =>
      obtain ⟨hkeep, hused⟩ := procStep_of_session conf hctor hs handler p
      exact .of_session hkeep hused
  | false => exact procStep_of_none hs hinv hctor handler (fun hrelies => by rw [hp hrelies] at hs; cases hs)

/-- **One step inside `send`** keeps it too. -/
theorem Keeps.sendStep (hinv : c.SessionInv) {p : SendPos B} (hp : p.Relies → c.userSession = true) :
    Keeps SendPos.Relies c (sendStep conf p c) := by
  cases hs : c.userSession with
  | true =>
      obtain ⟨hkeep, hused⟩ := sendStep_of_session conf hs p
      exact .of_session hkeep hused
  | false => exact sendStep_of_none hs hinv (fun hrelies => by rw [hp hrelies] at hs; cases hs)

end Comm

/-! ## Runs -/

namespace SessionSystem

variable {conf : Config B} {s s' : SessionSystem B}

/-- **The invariant**: every thread at a position that relies on the session has one, and no call has failed. -/
structure Inv (s : SessionSystem B) : Prop where
  session : s.comm.SessionInv
  proc    : ∀ p, s.proc = some p → p.Relies → s.comm.userSession = true
  senders : ∀ t p, s.senders t = some p → p.Relies → s.comm.userSession = true
  used    : s.failed = false

theorem Inv.init (id : CommId) : (SessionSystem.init id : SessionSystem B).Inv where
  session := Comm.SessionInv.create id
  proc    := fun p h => by cases h
  senders := fun t p h => by cases h
  used    := rfl

/-- The session factory returns an object or throws. -/
def FactoryReturnsOrThrows : Act B → Prop
  | .proc ch _ => ch.ctor ≠ .null
  | _          => True

instance (a : Act B) : Decidable (FactoryReturnsOrThrows a) := by
  unfold FactoryReturnsOrThrows
  split <;> infer_instance

theorem pos?_eq_some {P : Type} {r : Comm.After P} {p : P} (h : r.pos? = some p) : r = .goto p := by
  cases r with
  | goto q => exact congrArg Comm.After.goto (Option.some.inj h)
  | returned => cases h
  | threw => cases h
  | failed => cases h

/-- Every step keeps the invariant. -/
theorem Inv.step {a : Act B} (hinv : s.Inv) (hctor : FactoryReturnsOrThrows a)
    (h : SessionSystem.step conf s a = some s') : s'.Inv := by
  cases a with
  | env e =>
      rw [SessionSystem.step] at h
      split at h
      · next hadmits =>
          obtain ⟨c, hc, rfl⟩ := Option.map_eq_some_iff.mp h
          have hsame : c.userSession = s.comm.userSession :=
            (Comm.envStep_frame hc (fun m he => by subst he; cases hadmits)).1
          exact ⟨hinv.session.envStep hc, fun p hp hrelies => hsame.trans (hinv.proc p hp hrelies),
            fun t p hp hrelies => hsame.trans (hinv.senders t p hp hrelies), hinv.used⟩
      · cases h
  | enter =>
      rw [SessionSystem.step] at h
      split at h
      · cases h
        refine ⟨hinv.session, fun p hp hrelies => ?_, hinv.senders, hinv.used⟩
        cases hp
        exact hrelies.elim
      · cases h
  | proc ch handler =>
      rw [SessionSystem.step] at h
      split at h
      · cases h
      · next p hp =>
          cases h
          have hkeeps : Comm.Keeps Comm.Pos.Relies s.comm (Comm.procStep conf ch handler p s.comm) :=
            .procStep hinv.session hctor handler (hinv.proc p hp)
          refine ⟨hkeeps.session, fun q hq => hkeeps.next q (pos?_eq_some hq),
            fun t q hq hrelies => hkeeps.valid (hinv.senders t q hq hrelies), ?_⟩
          simp [hinv.used, hkeeps.used]
  | beginSend t m handler =>
      rw [SessionSystem.step] at h
      split at h
      · cases h
        refine ⟨hinv.session, hinv.proc, ?_, hinv.used⟩
        refine Family.forall_update
          (P := fun pos : Option (Comm.SendPos B) => ∀ p, pos = some p → p.Relies → s.comm.userSession = true)
          hinv.senders (fun p hp hrelies => ?_)
        cases hp
        exact hrelies.elim
      · cases h
  | send t =>
      rw [SessionSystem.step] at h
      split at h
      · cases h
      · next p hp =>
          cases h
          have hkeeps : Comm.Keeps Comm.SendPos.Relies s.comm (Comm.sendStep conf p s.comm) :=
            .sendStep hinv.session (hinv.senders t p hp)
          -- thread `t` moves, the others stay where they are
          have hsenders := Family.forall_update (i := t)
            (P := fun pos : Option (Comm.SendPos B) => ∀ q, pos = some q → q.Relies →
              (Comm.sendStep conf p s.comm).1.userSession = true)
            (fun u q hq hrelies => hkeeps.valid (hinv.senders u q hq hrelies))
            (fun q hq => hkeeps.next q (pos?_eq_some hq))
          refine ⟨hkeeps.session, fun q hq hrelies => hkeeps.valid (hinv.proc q hq hrelies), hsenders, ?_⟩
          simp [hinv.used, hkeeps.used]

/-- In every run whose session factory returns an object or throws, the invariant holds. -/
theorem Inv.run {id : CommId} {acts : List (Act B)} (hctor : ∀ a ∈ acts, FactoryReturnsOrThrows a)
    (h : Machine.run (SessionSystem.step conf) (SessionSystem.init id) acts = some s) : s.Inv :=
  Machine.run_guarded_invariant Inv (fun _ _ _ hi hok hs => hi.step hok hs) acts _ _ (Inv.init id)
    (Machine.guarded_of_mem (fun _ => hctor)) h

/-- **The session is never used before it exists.** In every run whose session factory returns an object or throws:
    when one of the four collections is not empty there is a session, a thread that is to call `user_session()` has
    one, and no call was made without one. -/
theorem session_valid_when_used (conf : Config B) (id : CommId) (acts : List (Act B)) (s : SessionSystem B)
    (hrun : Machine.run (SessionSystem.step conf) (SessionSystem.init id) acts = some s)
    (hctor : ∀ a ∈ acts, FactoryReturnsOrThrows a) :
    (s.comm.prepearedMQueue ≠ [] ∨ s.comm.outBuffers ≠ ∅ ∨ s.comm.sentMessages ≠ [] ∨ s.comm.mesTimeouts ≠ ∅ →
        s.comm.userSession = true)
    ∧ (∀ p, s.proc = some p → p.Calls → s.comm.userSession = true)
    ∧ (∀ t p, s.senders t = some p → p.Calls → s.comm.userSession = true)
    ∧ s.failed = false := by
  have hinv : s.Inv := .run hctor hrun
  refine ⟨fun hsome => ?_, fun p hp hcalls => hinv.proc p hp hcalls.relies,
    fun t p hp hcalls => hinv.senders t p hp hcalls.relies, hinv.used⟩
  by_contra hno
  have hs : s.comm.userSession = false := Bool.eq_false_iff.mpr hno
  rcases hsome with hq | ho | hsent | ht
  · exact hq (hinv.session.queue hs)
  · exact ho (hinv.session.out hs)
  · exact hsent (hinv.session.sent hs)
  · exact ht (hinv.session.timeouts hs)

/-- Thread 3 has sent a message, thread 7 is about to call `user_session()` for the next, and the thread inside
    `mt_process` has called its connected handler. -/
def twoSenders : List (Act .lp64) :=
  [.env .connectSuccess, .enter, .beginSend 7 ⟨[0x61], 0, 0, 1, []⟩ true]
    ++ List.replicate 5 (.proc .plain false)
    ++ [.beginSend 3 ⟨[0x62], 0, 0, 2, []⟩ false, .send 7, .send 3, .send 3, .send 7, .send 3, .send 3]

theorem session_valid_when_used_twoSenders : ∃ s,
    Machine.run (SessionSystem.step Config.plain) (SessionSystem.init 1) twoSenders = some s
      ∧ s.comm.prepearedMQueue.length = 1 ∧ s.senders 7 = some (.encode ⟨[0x61], 0, 0, 1, []⟩ true)
      ∧ s.comm.userSession = true ∧ s.failed = false := by
  have hctor : ∀ a ∈ twoSenders, FactoryReturnsOrThrows a := by decide +kernel
  obtain ⟨s, hrun, hqueue, hsender⟩ : ∃ s,
      Machine.run (SessionSystem.step Config.plain) (SessionSystem.init 1) twoSenders = some s
        ∧ s.comm.prepearedMQueue.length = 1 ∧ s.senders 7 = some (.encode ⟨[0x61], 0, 0, 1, []⟩ true) :=
    ⟨_, rfl, by decide +kernel, by decide +kernel⟩
  have huse := session_valid_when_used Config.plain 1 twoSenders s hrun hctor
  exact ⟨s, hrun, hqueue, hsender, huse.2.2.1 7 _ hsender trivial, huse.2.2.2⟩

/-- A factory that returns a null pointer is found out by the call at the end of `create_user_session`. -/
example : ∃ s : SessionSystem .lp64,
    Machine.run (SessionSystem.step Config.plain) (SessionSystem.init 1)
        ([.env .connectSuccess, .enter, .proc .plain false, .proc .plain false,
          .proc { Choice.plain with ctor := .null } false, .proc .plain false]) = some s
      ∧ s.failed = true :=
  ⟨_, rfl, rfl⟩

end SessionSystem

end Unicomm
