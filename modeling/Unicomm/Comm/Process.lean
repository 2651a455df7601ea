import Unicomm.Comm.Ops

/-!
# `Comm.Process` — `mt_process`, stage by stage

Models the processors of `communicator`. `mt_process` is cut into **stages** at the points where another
thread can come in between and be noticed: the queue is read and popped under two locks, a frame leaves
`_in_buffer` and the flag `_in_buffer_updated` is cleared in two steps. What lies between two such points
works on data only the processing thread touches, or under one lock, and is one stage.

`Choice` resolves what the code leaves open while a stage runs: the clock, how user code ends, and whether a
time quantum is used up.
-/

namespace Unicomm

variable {B : Build}

/-- Everything a stage does not decide itself. -/
structure Choice (B : Build) where
  /-- The clock, in microseconds. -/
  now     : Nat
  /-- The time quantum of the stage's loop has elapsed. -/
  elapsed : Bool
  /-- How the session factory ends. -/
  ctor    : Comm.CtorOutcome
  /-- How the handler calls of the stage end, in order; `none` is a normal return. -/
  handler : Nat → Option Exc
  /-- The reply the message arrived handler sets, given the identifier it is offered. -/
  reply   : MessageId B → Option (BinMessage B)

/-- Time is left, the session is created, every handler returns and none replies. -/
def Choice.plain : Choice B := ⟨0, false, .session, fun _ => none, fun _ => none⟩

namespace Comm

variable (conf : Config B) (ch : Choice B)

/-- Call the next function unless the last one threw. -/
def andThen (r : Option Exc × Comm B) (k : Comm B → Option Exc × Comm B) : Option Exc × Comm B :=
  match r with
  | (some e, c) => (some e, c)
  | (none, c)   => k c

/-! ## Connect -/

/-- `handle_connected_success`. The sentry starts reading however the function is left. -/
def handleConnectedSuccess (c : Comm B) : Option Exc × Comm B :=
  let c := { c with isConnected := true }
  let r := andThen (c.createUserSession conf ch.ctor) (callHandler .connected (ch.handler 0))
  (r.1, r.2.mtStartRead)

/-! ## Sent messages -/

/-- The loop of `mt_process_sent` over `sent`, which is all of `_sent_messages`: register the timeout, remove
    the entry, notify. `i` counts the handler calls. -/
def mtProcessSentLoop (i : Nat) : List (SentMessageInfo B) → Comm B → Option Exc × Comm B
  | [],         c => (none, c)
  | it :: sent, c =>
      let c := if conf.timeoutsEnabled && conf.needReply it.name then
        c.regMessageTimeout conf ch.now it.mid it.name else c
      let c := { c with sentMessages := sent }
      andThen (c.callHandler (.messageSent it.mid) (ch.handler i)) (mtProcessSentLoop (i + 1) sent)

/-- `mt_process_sent`. -/
def mtProcessSent (c : Comm B) : Option Exc × Comm B := mtProcessSentLoop conf ch 0 c.sentMessages c

/-! ## Incoming messages -/

/-- The reply `process_received` sends: it gets the identifier the handler was offered unless it has one, and
    the identifier of the message it answers. -/
def makeReply (outMesId : MessageId B) (m outm : BinMessage B) : BinMessage B :=
  let outm := if conf.useUniqueMessageId && !outm.idExists then { outm with id := outMesId } else outm
  { outm with rid := m.id }

/-- `process_received`. -/
def processReceived (m : BinMessage B) (c : Comm B) : Option Exc × Comm B :=
  let out := if conf.useUniqueMessageId then c.newMid else (undefinedMessageid, c)
  andThen (out.2.callHandler (.messageArrived m) (ch.handler 0)) (fun c =>
    match ch.reply out.1 with
    | none      => (none, c)
    | some outm =>
        let p := c.prepareToWrite conf (makeReply conf out.1 m outm)
        match p.result with
        | .ok _    => (none, p.comm)
        | .error e => (some e, p.comm))

/-- `process_reply`: a reply nobody waits for is thrown away, one that is not allowed throws. -/
def processReply (m : BinMessage B) (c : Comm B) : Option Exc × Comm B :=
  match c.mesTimeouts[m.rid]? with
  | none     => (none, c.log [.discarded m.rid])
  | some req =>
      if conf.isAllowedReply req.name m.name then
        processReceived conf ch m (c.unregMessageTimeout m.rid)
      else
        (some (.disallowedReplyError ("Received reply is not allowed; message id [" ++ toString m.id.toNat
          ++ "]; message rid [" ++ toString m.rid.toNat ++ "]; request name [" ++ req.name.text
          ++ "]; reply name [" ++ m.name.text ++ "]")), c)

/-- `process_incoming`. -/
def processIncoming (m : BinMessage B) (c : Comm B) : Option Exc × Comm B :=
  if m.ridExists then processReply conf ch m c else processReceived conf ch m c

/-- `mt_perform_decode`: what `perform_decode` gives, and the communicator without the bytes it took. -/
def mtPerformDecode (c : Comm B) : Except Exc (Option (BinMessage B)) × Comm B :=
  if c.userSession then
    let r := conf.messageDecoder.performDecode c.inBuffer
    (r.1, { c with inBuffer := r.2 })
  else (.error c.invalidSession, c)

/-! ## Timeouts -/

/-- The loop of `process_timeouts` over the entries of `_mes_timeouts`. `i` counts the handler calls. -/
def processTimeoutsLoop (i : Nat) : List (MessageId B × MessageTimeoutInfo) → Comm B → Option Exc × Comm B
  | [],                 c => (none, c)
  | (mid, info) :: its, c =>
      if info.tout.elapsed ch.now then
        andThen ((c.unregMessageTimeout mid).callHandler (.messageTimeout mid) (ch.handler i))
          (processTimeoutsLoop (i + 1) its)
      else
        processTimeoutsLoop i its c

/-- `process_timeouts`. -/
def processTimeouts (c : Comm B) : Option Exc × Comm B :=
  processTimeoutsLoop ch 0 c.mesTimeouts.toList c

/-! ## The stages of `mt_process` -/

/-- Where a thread stands inside `mt_process`. -/
inductive Stage (B : Build) where
  | connect
  | sent
  | arrived
  | decode
  | clearUpdated
  | write
  /-- Between `front_copy`, which gave `m`, and `pop`. -/
  | popping (m : PrepearedMessage B)
  | timeouts
  | errors
  | afterProcessed
  deriving DecidableEq

/-- How a stage ends: on to the next one, out of `mt_process` by return or by an exception. -/
inductive Next (B : Build) where
  | goto (s : Stage B)
  | done
  | raised (e : Exc)
  deriving DecidableEq

/-- Go to stage `s` unless something was thrown. -/
def proceed (s : Next B) (r : Option Exc × Comm B) : Comm B × Next B :=
  match r with
  | (some e, c) => (c, .raised e)
  | (none, c)   => (c, s)

/-- One stage of `mt_process`. -/
def runStage (s : Stage B) (c : Comm B) : Comm B × Next B :=
  match s with
  | .connect =>
      if c.justConnected then
        proceed (.goto .sent) (handleConnectedSuccess conf ch { c with justConnected := false })
      else (c, .goto .sent)
  | .sent =>
      if c.sentMessages.isEmpty then (c, .goto .arrived)
      else proceed (.goto .arrived) (mtProcessSent conf ch c)
  | .arrived =>
      -- `mt_is_arrived`, then the test at the top of `mt_process_arrived`
      if !c.inBuffer.isEmpty && (c.inBufferUpdated && c.userSession) then (c, .goto .decode)
      else (c, .goto .write)
  | .decode =>
      if c.inBufferUpdated && !ch.elapsed then
        match mtPerformDecode conf c with
        | (.error e, c)     => (c, .raised e)
        | (.ok none, c)     => (c, .goto .clearUpdated)
        | (.ok (some m), c) => proceed (.goto .decode) (processIncoming conf ch m c)
      else (c, .goto .write)
  | .clearUpdated => ({ c with inBufferUpdated := false }, .goto .decode)
  | .write =>
      match c.frontCopy with
      | some m => if ch.elapsed then (c, .goto .timeouts) else (c, .goto (.popping m))
      | none   => (c, .goto .timeouts)
  | .popping m => (c.popAndWrite m, .goto .write)
  | .timeouts =>
      if conf.timeoutsEnabled then proceed (.goto .errors) (processTimeouts ch c) else (c, .goto .errors)
  | .errors => proceed (.goto .afterProcessed) (andThen c.mtHandleHandshakeError mtHandleChError)
  | .afterProcessed =>
      if c.userSession then proceed .done (c.callHandler .afterProcessed (ch.handler 0)) else (c, .done)

/-- `mt_is_unprocessed_incoming`. -/
def mtIsUnprocessedIncoming (c : Comm B) : Bool := !c.inBuffer.isEmpty && c.inBufferUpdated

/-- `mt_is_unprocessed_outgoing`. -/
def mtIsUnprocessedOutgoing (c : Comm B) : Bool := !c.prepearedMQueue.isEmpty

end Comm

end Unicomm
