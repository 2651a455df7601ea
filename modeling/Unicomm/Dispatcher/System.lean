import Unicomm.Comm.System
import Unicomm.Dispatcher.Container

/-!
# `Dispatcher.System` — the threads around the container

`N` threads are inside `dispatcher::run`, `M` others are application threads and Asio handlers; a run is any
interleaving of their atomic steps. A step is one critical section of the container, one stage of `mt_process`,
one step of a communicator's environment, or one of the three steps of `kick_dispatcher`: the test of the
counter, its increment and the post. The idle timer is off.

`mt_process` tries the communicator's lock; the lock is held exactly while a thread is inside. Whatever leaves
`mt_process` by an exception goes to the `catch` blocks of `process_client`. Identifiers are not reused, and
each completion of an accept or connect inserts its communicator once.
-/

namespace Unicomm

variable {B : Build}

/-- Where a call of `kick_dispatcher` stands. -/
inductive Kick where
  | test
  | inc
  | post
  deriving DecidableEq, Repr

/-- Where a thread of the dispatcher stands. `comms` is what `process_clients` took out before the current
    communicator. -/
inductive Thread (B : Build) where
  /-- Inside `io_service::run`, executing no handler. -/
  | idle
  /-- About to call `take_out`. -/
  | taking (comms : List CommId)
  | processing (comms : List CommId) (id : CommId) (stage : Comm.Stage B)
  /-- `mt_process` returned. -/
  | checking (comms : List CommId) (id : CommId)
  | kicking (comms : List CommId) (k : Kick)
  /-- In a `catch` block of `process_client`. -/
  | caught (comms : List CommId) (id : CommId) (e : Exc)
  /-- In `handle_disconnected`, `remove_client` having erased the communicator. -/
  | removed (comms : List CommId) (id : CommId)
  /-- In the loop that gives the communicators back. -/
  | returning (comms : List CommId)

/-- Where another thread stands. -/
inductive Agent (B : Build) where
  | idle
  /-- In `mt_asio_read_handler`, behind the append. -/
  | reading (id : CommId)
  /-- In `send_all`, between the passes. -/
  | sendingAll (message : BinMessage B) (sended : FullMessageidMap B)
  /-- In `kick_dispatcher`, the last thing the call does before it returns `mids`. -/
  | kicking (mids : FullMessageidMap B) (k : Kick)

namespace Thread

/-- The communicators a thread took out and has not given back. -/
def comms : Thread B → List CommId
  | .idle                => []
  | .taking comms        => comms
  | .processing comms id _ => comms ++ [id]
  | .checking comms id   => comms ++ [id]
  | .kicking comms _     => comms
  | .caught comms id _   => comms ++ [id]
  | .removed comms id    => comms ++ [id]
  | .returning comms     => comms

/-- The communicator whose `mt_process` the thread is inside. -/
def inside? : Thread B → Option CommId
  | .processing _ id _ => some id
  | _                  => none

end Thread

/-- A dispatcher that `N` threads run, with `M` other threads around it. -/
structure Running (B : Build) (N M : Nat) extends Dispatcher B where
  threads   : Fin N → Thread B
  agents    : Fin M → Agent B
  /-- `_kick_count`. -/
  kickCount : Nat
  /-- The kick handlers that are posted and not started. -/
  kickQueue : Nat
  /-- The identifiers ever inserted. -/
  inserted  : List CommId
  /-- The identifiers `remove_client` erased. -/
  erased    : List CommId

namespace Running

variable {N M : Nat}

/-- Nothing was connected yet; every object in the heap is a fresh one. -/
def init : Running B N M where
  clients   := .empty
  comms     := Comm.create
  threads _ := .idle
  agents _  := .idle
  kickCount := 0
  kickQueue := 0
  inserted  := []
  erased    := []

variable (conf : Config B) (s : Running B N M)

/-- Replace a communicator. -/
def setComm (id : CommId) (c : Comm B) : Running B N M := { s with comms := Function.update s.comms id c }

/-- Move a thread of the dispatcher. -/
def setThread (t : Fin N) (x : Thread B) : Running B N M := { s with threads := Function.update s.threads t x }

/-- Move another thread. -/
def setAgent (a : Fin M) (x : Agent B) : Running B N M := { s with agents := Function.update s.agents a x }

/-- `_this_mutex` of the communicator is held. -/
def mutexHeld (id : CommId) : Prop := ∃ t, (s.threads t).inside? = some id

instance (id : CommId) : Decidable (s.mutexHeld id) :=
  Nat.decidableExistsFin (fun t => (s.threads t).inside? = some id)

/-! ## `kick_dispatcher` -/

/-- One step of a call of `kick_dispatcher`, and where it goes on, if it does. -/
def kickStep (k : Kick) : Option Kick × Running B N M :=
  match k with
  | .test => (if s.kickCount < N then some .inc else none, s)
  | .inc  => (some .post, { s with kickCount := s.kickCount + 1 })
  | .post => (none, { s with kickQueue := s.kickQueue + 1 })

/-! ## The threads of the dispatcher -/

/-- `take_out` gave `id`: enter `mt_process`, which does nothing if the lock is held. -/
def enter (comms : List CommId) (id : CommId) : Thread B :=
  if s.mutexHeld id then .checking comms id else .processing comms id .connect

/-- Where a thread goes on after a stage of `mt_process`. -/
def afterStage (comms : List CommId) (id : CommId) : Comm.Next B → Thread B
  | .goto st  => .processing comms id st
  | .done     => .checking comms id
  | .raised e => .caught comms id e

/-- `mt_is_unprocessed_incoming() || mt_is_unprocessed_outgoing()`. The code reads one after the other; as
    nobody but the thread that asks takes data away, it could as well read both at one time. -/
def unprocessed (id : CommId) : Bool :=
  (s.comms id).mtIsUnprocessedIncoming || (s.comms id).mtIsUnprocessedOutgoing

/-- The exceptions `process_client` passes to `handle_disconnected`. -/
def disconnects : Exc → Bool
  | .disconnectedError _ _ => true
  | .handshakeError _ _    => true
  | _                      => false

/-- The other `catch` blocks: `disconnect` for a session that could not be created, `handle_error` for the
    rest. Undefined behaviour is followed as if it were an exception. -/
def handleException (e : Exc) (c : Comm B) : Comm B :=
  match e with
  | .sessionCreationError _ => c.disconnect
  | _                       => if c.userSession then c.log [.error] else c

/-- The `catch` blocks of `process_client`, `handle_disconnected` up to `remove_client`. -/
def catchStep (t : Fin N) (comms : List CommId) (id : CommId) (e : Exc) : Running B N M :=
  if disconnects e then
    let r := s.clients.erase id
    if r.1 then { s with clients := r.2, erased := id :: s.erased }.setThread t (.removed comms id)
    else s.setThread t (.taking (comms ++ [id]))
  else
    (s.setComm id (handleException e (s.comms id))).setThread t (.taking (comms ++ [id]))

/-- The rest of `handle_disconnected`: close the connection and call the disconnected handler. -/
def handleDisconnected (c : Comm B) : Comm B :=
  let c := c.disconnect
  if c.userSession then c.log [.disconnected] else c

/-- A thread finishes `handle_disconnected`. -/
def disconnectedStep (t : Fin N) (comms : List CommId) (id : CommId) : Running B N M :=
  (s.setComm id (handleDisconnected (s.comms id))).setThread t (.taking (comms ++ [id]))

/-- One step of a thread of the dispatcher. -/
def threadStep (t : Fin N) (ch : Choice B) : Option (Running B N M) :=
  match s.threads t with
  | .idle =>
      if 0 < s.kickQueue then
        some ({ s with kickQueue := s.kickQueue - 1, kickCount := s.kickCount - 1 }.setThread t (.taking []))
      else none
  | .taking comms =>
      match s.clients.takeOut with
      | (some id, clients) => some ({ s with clients := clients }.setThread t (s.enter comms id))
      | (none, _)          => some (s.setThread t (.returning comms))
  | .processing comms id st =>
      let r := Comm.runStage conf ch st (s.comms id)
      some ((s.setComm id r.1).setThread t (afterStage comms id r.2))
  | .checking comms id =>
      if s.unprocessed id then some (s.setThread t (.kicking (comms ++ [id]) .test))
      else some (s.setThread t (.taking (comms ++ [id])))
  | .kicking comms k =>
      let r := s.kickStep k
      some (r.2.setThread t (match r.1 with | some k => .kicking comms k | none => .taking comms))
  | .caught comms id e  => some (s.catchStep t comms id e)
  | .removed comms id   => some (s.disconnectedStep t comms id)
  | .returning []       => some (s.setThread t .idle)
  | .returning (id :: comms) =>
      some ({ s with clients := s.clients.getBack id }.setThread t (.returning comms))

/-! ## The other threads -/

/-- The steps of a communicator's environment that nobody is told about. -/
def silent : EnvAct B → Bool
  | .connectSuccess | .handshake _ | .writeSome _ _ | .writeDone _ | .disconnect => true
  | _ => false

/-- The steps the dispatcher is kicked for. -/
def reported : EnvAct B → Bool
  | .readFail _ | .writeFail _ _ | .disconnect => true
  | _ => false

/-- Where a call goes on that has to kick the dispatcher unless it threw. -/
def afterSend (thrown : Option Exc) (x : Agent B) : Agent B := if thrown.isSome then .idle else x

/-- The steps. -/
inductive Act (B : Build) (N M : Nat) where
  /-- The accept or connect handler inserts its communicator; its kick follows. -/
  | accept (a : Fin M) (id : CommId)
  | comm (id : CommId) (e : EnvAct B)
  | report (a : Fin M) (id : CommId) (e : EnvAct B)
  /-- `send` of a communicator that was looked up in the container before. -/
  | send (a : Fin M) (id : CommId) (m : BinMessage B)
  | sendAllPrimary (a : Fin M) (m : BinMessage B)
  | sendAllExcluded (a : Fin M)
  | readAppend (a : Fin M) (id : CommId) (bytes : Str)
  | readUpdated (a : Fin M)
  | kick (a : Fin M)
  | thread (t : Fin N) (ch : Choice B)

/-- One step; `none` when it is not possible. -/
def step : Act B N M → Option (Running B N M)
  | .accept a id =>
      match s.agents a with
      | .idle =>
          if id ∈ s.inserted then none
          else
            let s := { s with clients := s.clients.insert id, inserted := id :: s.inserted }
            some (s.setAgent a (.kicking ∅ .test))
      | _ => none
  | .comm id e =>
      if id ∈ s.inserted ∧ silent e then ((s.comms id).envStep conf e).map (fun c => s.setComm id c) else none
  | .report a id e =>
      match s.agents a with
      | .idle =>
          if id ∈ s.inserted ∧ reported e then
            ((s.comms id).envStep conf e).map (fun c => (s.setComm id c).setAgent a (.kicking ∅ .test))
          else none
      | _ => none
  | .send a id m =>
      match s.agents a with
      | .idle =>
          if id ∈ s.inserted then
            let p := (s.comms id).prepareToWrite conf m
            some ((s.setComm id p.comm).setAgent a (if p.result.isOk then .kicking ∅ .test else .idle))
          else none
      | _ => none
  | .sendAllPrimary a m =>
      match s.agents a with
      | .idle =>
          let p := sendAllPass conf s.clients.clients m s.comms
          some ({ s with comms := p.comms }.setAgent a (afterSend p.thrown (.sendingAll p.message p.sended)))
      | _ => none
  | .sendAllExcluded a =>
      match s.agents a with
      | .sendingAll m sended =>
          let p := sendAllPass conf s.clients.excluded m s.comms
          let mids := mergeSended sended p.sended
          some ({ s with comms := p.comms }.setAgent a (afterSend p.thrown (.kicking mids .test)))
      | _ => none
  | .readAppend a id bytes =>
      match s.agents a with
      | .idle =>
          if id ∈ s.inserted then
            ((s.comms id).envStep conf (.readAppend bytes)).map (fun c => (s.setComm id c).setAgent a (.reading id))
          else none
      | _ => none
  | .readUpdated a =>
      match s.agents a with
      | .reading id =>
          ((s.comms id).envStep conf .readUpdated).map (fun c => (s.setComm id c).setAgent a (.kicking ∅ .test))
      | _ => none
  | .kick a =>
      match s.agents a with
      | .kicking mids k =>
          let r := s.kickStep k
          some (r.2.setAgent a (match r.1 with | some k => .kicking mids k | none => .idle))
      | _ => none
  | .thread t ch => s.threadStep conf t ch

/-! ## What a step does -/

/-- **Everything a step can do**, with what allowed it. -/
inductive Move (conf : Config B) (s : Running B N M) : Act B N M → Running B N M → Prop where
  | accept {a : Fin M} {id : CommId} (ha : s.agents a = .idle) (hid : id ∉ s.inserted) :
      Move conf s (.accept a id)
        ({ s with clients := s.clients.insert id, inserted := id :: s.inserted }.setAgent a (.kicking ∅ .test))
  | comm {id : CommId} {e : EnvAct B} {c : Comm B} (hid : id ∈ s.inserted) (he : silent e = true)
      (hc : (s.comms id).envStep conf e = some c) : Move conf s (.comm id e) (s.setComm id c)
  | report {a : Fin M} {id : CommId} {e : EnvAct B} {c : Comm B} (ha : s.agents a = .idle) (hid : id ∈ s.inserted)
      (he : reported e = true) (hc : (s.comms id).envStep conf e = some c) :
      Move conf s (.report a id e) ((s.setComm id c).setAgent a (.kicking ∅ .test))
  | send {a : Fin M} {id : CommId} {m : BinMessage B} (ha : s.agents a = .idle) (hid : id ∈ s.inserted) :
      Move conf s (.send a id m) ((s.setComm id ((s.comms id).prepareToWrite conf m).comm).setAgent a
        (if ((s.comms id).prepareToWrite conf m).result.isOk then .kicking ∅ .test else .idle))
  | sendAllPrimary {a : Fin M} {m : BinMessage B} {p : Sended B} (ha : s.agents a = .idle)
      (hp : p = sendAllPass conf s.clients.clients m s.comms) :
      Move conf s (.sendAllPrimary a m)
        ({ s with comms := p.comms }.setAgent a (afterSend p.thrown (.sendingAll p.message p.sended)))
  | sendAllExcluded {a : Fin M} {m : BinMessage B} {sended : FullMessageidMap B} {p : Sended B}
      (ha : s.agents a = .sendingAll m sended) (hp : p = sendAllPass conf s.clients.excluded m s.comms) :
      Move conf s (.sendAllExcluded a) ({ s with comms := p.comms }.setAgent a
        (afterSend p.thrown (.kicking (mergeSended sended p.sended) .test)))
  | readAppend {a : Fin M} {id : CommId} {bytes : Str} {c : Comm B} (ha : s.agents a = .idle)
      (hid : id ∈ s.inserted) (hc : (s.comms id).envStep conf (.readAppend bytes) = some c) :
      Move conf s (.readAppend a id bytes) ((s.setComm id c).setAgent a (.reading id))
  | readUpdated {a : Fin M} {id : CommId} {c : Comm B} (ha : s.agents a = .reading id)
      (hc : (s.comms id).envStep conf .readUpdated = some c) :
      Move conf s (.readUpdated a) ((s.setComm id c).setAgent a (.kicking ∅ .test))
  | kick {a : Fin M} {mids : FullMessageidMap B} {k : Kick} (ha : s.agents a = .kicking mids k) :
      Move conf s (.kick a) ((s.kickStep k).2.setAgent a
        (match (s.kickStep k).1 with | some k => .kicking mids k | none => .idle))
  | start {t : Fin N} {ch : Choice B} (ht : s.threads t = .idle) (hq : 0 < s.kickQueue) :
      Move conf s (.thread t ch)
        ({ s with kickQueue := s.kickQueue - 1, kickCount := s.kickCount - 1 }.setThread t (.taking []))
  | take {t : Fin N} {ch : Choice B} {comms : List CommId} {id : CommId} (ht : s.threads t = .taking comms)
      (hid : id ∈ s.clients.clients) :
      Move conf s (.thread t ch)
        ({ s with clients := ⟨s.clients.clients.erase id, s.clients.excluded.insert id⟩ }.setThread t
          (s.enter comms id))
  | empty {t : Fin N} {ch : Choice B} {comms : List CommId} (ht : s.threads t = .taking comms)
      (hno : ∀ id, id ∉ s.clients.clients) : Move conf s (.thread t ch) (s.setThread t (.returning comms))
  | stage {t : Fin N} {ch : Choice B} {comms : List CommId} {id : CommId} {st : Comm.Stage B}
      (ht : s.threads t = .processing comms id st) :
      Move conf s (.thread t ch) ((s.setComm id (Comm.runStage conf ch st (s.comms id)).1).setThread t
        (afterStage comms id (Comm.runStage conf ch st (s.comms id)).2))
  | check {t : Fin N} {ch : Choice B} {comms : List CommId} {id : CommId} (ht : s.threads t = .checking comms id) :
      Move conf s (.thread t ch) (s.setThread t
        (if s.unprocessed id then .kicking (comms ++ [id]) .test else .taking (comms ++ [id])))
  | kickThread {t : Fin N} {ch : Choice B} {comms : List CommId} {k : Kick} (ht : s.threads t = .kicking comms k) :
      Move conf s (.thread t ch) ((s.kickStep k).2.setThread t
        (match (s.kickStep k).1 with | some k => .kicking comms k | none => .taking comms))
  | caught {t : Fin N} {ch : Choice B} {comms : List CommId} {id : CommId} {e : Exc}
      (ht : s.threads t = .caught comms id e) : Move conf s (.thread t ch) (s.catchStep t comms id e)
  | removed {t : Fin N} {ch : Choice B} {comms : List CommId} {id : CommId} (ht : s.threads t = .removed comms id) :
      Move conf s (.thread t ch) (s.disconnectedStep t comms id)
  | getBack {t : Fin N} {ch : Choice B} {id : CommId} {comms : List CommId}
      (ht : s.threads t = .returning (id :: comms)) :
      Move conf s (.thread t ch) ({ s with clients := s.clients.getBack id }.setThread t (.returning comms))
  | finish {t : Fin N} {ch : Choice B} (ht : s.threads t = .returning []) :
      Move conf s (.thread t ch) (s.setThread t .idle)

variable {conf} {s}

theorem threadStep_move {s' : Running B N M} {t : Fin N} {ch : Choice B}
    (h : s.threadStep conf t ch = some s') : Move conf s (.thread t ch) s' := by
  rw [threadStep] at h
  split at h
  · next ht =>
      split at h <;> cases h
      exact .start ht ‹_›
  · next comms ht =>
      rcases s.clients.takeOut_cases with ⟨htake, hno⟩ | ⟨id, hid, htake⟩ <;> rw [htake] at h <;> cases h
      · exact .empty ht hno
      · exact .take ht hid
  · next ht => cases h; exact .stage ht
  · next comms id ht =>
      have hmove : Move conf s (.thread t ch) _ := .check ht
      cases hu : s.unprocessed id <;> rw [hu] at h hmove <;> cases h <;> exact hmove
  · next ht => cases h; exact .kickThread ht
  · next ht => cases h; exact .caught ht
  · next ht => cases h; exact .removed ht
  · next ht => cases h; exact .finish ht
  · next ht => cases h; exact .getBack ht

/-- **A step is a move.** -/
theorem step_move {s' : Running B N M} {a : Act B N M} (h : s.step conf a = some s') :
    Move conf s a s' := by
  cases a with
  | thread t ch => exact threadStep_move h
  | accept a id =>
      rw [step] at h
      split at h
      · next ha => split at h <;> cases h; exact .accept ha ‹_›
      · cases h
  | comm id e =>
      rw [step] at h
      split at h
      · next hok =>
          obtain ⟨c, hc, rfl⟩ := Option.map_eq_some_iff.mp h
          exact .comm hok.1 hok.2 hc
      · cases h
  | report a id e =>
      rw [step] at h
      split at h
      · next ha =>
          split at h
          · next hok =>
              obtain ⟨c, hc, rfl⟩ := Option.map_eq_some_iff.mp h
              exact .report ha hok.1 hok.2 hc
          · cases h
      · cases h
  | send a id m =>
      rw [step] at h
      split at h
      · next ha => split at h <;> cases h; exact .send ha ‹_›
      · cases h
  | sendAllPrimary a m =>
      rw [step] at h
      split at h
      · next ha => cases h; exact .sendAllPrimary ha rfl
      · cases h
  | sendAllExcluded a =>
      rw [step] at h
      split at h
      · next ha => cases h; exact .sendAllExcluded ha rfl
      · cases h
  | readAppend a id bytes =>
      rw [step] at h
      split at h
      · next ha =>
          split at h
          · next hid =>
              obtain ⟨c, hc, rfl⟩ := Option.map_eq_some_iff.mp h
              exact .readAppend ha hid hc
          · cases h
      · cases h
  | readUpdated a =>
      rw [step] at h
      split at h
      · next ha =>
          obtain ⟨c, hc, rfl⟩ := Option.map_eq_some_iff.mp h
          exact .readUpdated ha hc
      · cases h
  | kick a =>
      rw [step] at h
      split at h
      · next ha => cases h; exact .kick ha
      · cases h

end Running

end Unicomm
