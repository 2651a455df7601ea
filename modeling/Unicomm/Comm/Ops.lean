import Unicomm.Comm.State

/-!
# `Comm.Ops` — the operations of a communicator

Models the member functions of `communicator` that `mt_process` and the Asio handlers are made of. A function
that may throw returns what it threw together with the communicator **as it then is**: C++ undoes nothing. What
user code decides, above all how a handler ends, is an argument.
-/

namespace Unicomm

variable {B : Build}

namespace Comm

/-! ## Session -/

/-- How the session factory of the configuration ends. -/
inductive CtorOutcome where
  | session
  | null
  | throwsStd (what : String)
  | throwsUnknown
  deriving DecidableEq, Repr

/-- `check_session_factory`, then the call of the factory. -/
def callSessionFactory (conf : Config B) (ctor : CtorOutcome) : CtorOutcome :=
  if conf.hasSessionFactory then ctor else .throwsStd "Specified session factory method is invalid"

/-- `create_user_session`. A null session is dereferenced. -/
def createUserSession (conf : Config B) (ctor : CtorOutcome) (c : Comm B) : Option Exc × Comm B :=
  if c.userSession then (none, c)
  else match callSessionFactory conf ctor with
    | .session        => (none, { c with userSession := true })
    | .null           => (some .undefinedBehavior, c)
    | .throwsStd what =>
        (some (.sessionCreationError ("Can't create session object: [" ++ what ++ "]")),
          c.log [.sessionCtorThrew])
    | .throwsUnknown  =>
        (some (.sessionCreationError "Can't create session object: [Unknown error]"),
          c.log [.sessionCtorThrew])

/-- `user_session().signal_…`: invoke a handler of the session, which ends as `outcome` says. -/
def callHandler (e : Event B) (outcome : Option Exc) (c : Comm B) : Option Exc × Comm B :=
  if c.userSession then (outcome, c.log [e]) else (some .undefinedBehavior, c)

/-- The exception of `session()`. -/
def invalidSession (c : Comm B) : Exc :=
  .invalidSession ("The user session object is invalid, comm ID [" ++ toString c.id ++ "]")

/-! ## Sending -/

/-- `new_mid`: the counter skips the undefined identifier. -/
def newMid (c : Comm B) : MessageId B × Comm B :=
  let mesid := c.mesid + 1
  let mesid := if mesid = undefinedMessageid then mesid + 1 else mesid
  (mesid, log { c with mesid } [.drawn mesid])

/-- `push_prepeared_message`: one locked push into the queue. -/
def pushPrepearedMessage (m : PrepearedMessage B) (c : Comm B) : Comm B :=
  let c := { c with prepearedMQueue := PriorityQueue.push PrepearedMessage.priority m c.prepearedMQueue }
  c.log [.pushed m]

/-- The priority `prepare_to_write` gives a message: the configured one when the message has none. -/
def sendPriority (conf : Config B) (m : BinMessage B) : Nat :=
  if conf.useDefaultMessagePriority && m.priority == undefinedPriority then conf.messagePriority m.name
  else m.priority

/-- The identifier of an outgoing message: its own, or a new one when it has none and every message is to
    have one. -/
def drawMid (conf : Config B) (m : BinMessage B) (c : Comm B) : MessageId B × Comm B :=
  if conf.useUniqueMessageId && !m.idExists then c.newMid else (m.id, c)

/-- The caller's message object once `prepare_to_write` has written identifier and priority into it. -/
def stamped (conf : Config B) (m : BinMessage B) (c : Comm B) : BinMessage B :=
  { m with id := (drawMid conf m c).1, priority := sendPriority conf m }

/-- What `prepare_to_write` leaves behind: its result, the caller's message object and the communicator. -/
structure Prepared (B : Build) where
  result  : Except Exc (MessageId B)
  message : BinMessage B
  comm    : Comm B

/-- `prepare_to_write`, the whole of `send`. Identifier and priority are written into the **caller's**
    message object, before anything can throw. -/
def prepareToWrite (conf : Config B) (message : BinMessage B) (comm : Comm B) : Prepared B :=
  let m := stamped conf message comm
  let c := (drawMid conf message comm).2
  if c.userSession then
    match conf.messageEncoder.performEncode m with
    | .error e      => ⟨.error e, m, c⟩
    | .ok outBuffer => ⟨.ok m.id, m, c.pushPrepearedMessage ⟨m.id, m.name, m.priority, outBuffer⟩⟩
  else
    ⟨.error c.invalidSession, m, c⟩

/-- `front_copy`, the first locked half of `pop_prepeared_message`. -/
def frontCopy (c : Comm B) : Option (PrepearedMessage B) := c.prepearedMQueue.head?

/-- `mt_out_buffers_insert`: `m` goes into the out buffers under a new internal identifier, unless they have a buffer
    under that identifier. -/
def mtOutBuffersInsert (m : PrepearedMessage B) (c : Comm B) : MessageId B × Comm B :=
  (c.internalMid,
    { c with internalMid := c.internalMid + 1, outBuffers := c.outBuffers.insertIfNew c.internalMid m })

/-- The second locked half of `pop_prepeared_message`, and the rest of the loop body of `mt_start_write`: the copy
    `m` goes into the out buffers, and what is there under its internal identifier to the socket. -/
def popAndWrite (m : PrepearedMessage B) (c : Comm B) : Comm B :=
  let c := { c with prepearedMQueue := c.prepearedMQueue.tail }
  let inserted := c.mtOutBuffersInsert m
  let intMid := inserted.1
  let c := inserted.2
  -- `mt_get_out_buffers_item`: there is a buffer, the one just inserted or one that was in its place
  let s := (c.outBuffers.getD intMid m).outBuffer
  let c := { c with socket := { c.socket with writes := c.socket.writes ++ [AsyncWrite.start intMid s] } }
  c.log [.handed m]

/-! ## Timeouts -/

/-- `is_timeout_registered`. -/
def isTimeoutRegistered (mid : MessageId B) (c : Comm B) : Bool := c.mesTimeouts.contains mid

/-- `reg_message_timeout`, called at clock time `now`. Both branches of the source store the new entry. -/
def regMessageTimeout (conf : Config B) (now : Nat) (mid : MessageId B) (name : Str) (c : Comm B) : Comm B :=
  let tout : Timeout :=
    ⟨now, if conf.messageTimeoutUsed name then some (conf.messageTimeout name) else none⟩
  let c := { c with mesTimeouts := c.mesTimeouts.insert mid ⟨name, tout⟩ }
  c.log [.registered mid]

/-- `unreg_message_timeout`. -/
def unregMessageTimeout (mid : MessageId B) (c : Comm B) : Comm B :=
  { c with mesTimeouts := c.mesTimeouts.erase mid }

/-! ## Sent messages -/

/-- `mt_reg_sent_message`: a completed write whose message is still in the out buffers is registered. -/
def mtRegSentMessage (intMid : MessageId B) (c : Comm B) : Comm B :=
  match c.outBuffers[intMid]? with
  | some m => { c with sentMessages := c.sentMessages ++ [⟨intMid, m.id, m.name⟩] }
  | none   => c

/-- `mt_asio_write_handler` for the operation `intMid`; `error` is zero on success. -/
def mtAsioWriteHandler (error : Nat) (intMid : MessageId B) (c : Comm B) : Comm B :=
  let c := { c with writeError := error }
  let c := if error ≠ 0 then c.log ((c.outBuffers[intMid]?.map (fun m => .writeFailed m.id)).toList)
    else c.mtRegSentMessage intMid
  { c with outBuffers := c.outBuffers.erase intMid }

/-! ## Reading -/

/-- `mt_start_read`. -/
def mtStartRead (c : Comm B) : Comm B :=
  { c with socket := { c.socket with reads := c.socket.reads + 1 } }

/-! ## Connection -/

/-- `disconnect`: shut an open socket down and close it. -/
def disconnect (c : Comm B) : Comm B :=
  if c.socket.isOpen then
    { c with isConnected := false, socket := { c.socket with isOpen := false } }
  else c

/-- `mt_handle_ch_error`: a recorded error is cleared and thrown, the read error first. -/
def mtHandleChError (c : Comm B) : Option Exc × Comm B :=
  let error := if c.readError ≠ 0 then c.readError else c.writeError
  let c := { c with readError := 0, writeError := 0 }
  if error ≠ 0 then (some (.disconnectedError error "Channel error"), c) else (none, c)

/-- `mt_handle_handshake_error`. -/
def mtHandleHandshakeError (c : Comm B) : Option Exc × Comm B :=
  if c.handshakeError ≠ 0 then
    (some (.handshakeError c.handshakeError "Handshake error occurred"),
      disconnect { c with handshakeError := 0 })
  else
    (none, c)

/-! ## What `disconnect` leaves alone -/

@[simp] theorem disconnect_userSession (c : Comm B) : c.disconnect.userSession = c.userSession := by
  rw [disconnect]; split <;> rfl

@[simp] theorem disconnect_prepearedMQueue (c : Comm B) :
    c.disconnect.prepearedMQueue = c.prepearedMQueue := by
  rw [disconnect]; split <;> rfl

@[simp] theorem disconnect_outBuffers (c : Comm B) : c.disconnect.outBuffers = c.outBuffers := by
  rw [disconnect]; split <;> rfl

@[simp] theorem disconnect_sentMessages (c : Comm B) : c.disconnect.sentMessages = c.sentMessages := by
  rw [disconnect]; split <;> rfl

@[simp] theorem disconnect_mesTimeouts (c : Comm B) : c.disconnect.mesTimeouts = c.mesTimeouts := by
  rw [disconnect]; split <;> rfl

@[simp] theorem disconnect_history (c : Comm B) : c.disconnect.history = c.history := by
  rw [disconnect]; split <;> rfl

/-! ## What starting a write does -/

section

variable (m : PrepearedMessage B) (c : Comm B)

@[simp] theorem popAndWrite_prepearedMQueue : (c.popAndWrite m).prepearedMQueue = c.prepearedMQueue.tail := rfl

@[simp] theorem popAndWrite_outBuffers :
    (c.popAndWrite m).outBuffers = c.outBuffers.insertIfNew c.internalMid m := rfl

@[simp] theorem popAndWrite_internalMid : (c.popAndWrite m).internalMid = c.internalMid + 1 := rfl

theorem popAndWrite_writes :
    (c.popAndWrite m).socket.writes = c.socket.writes
      ++ [AsyncWrite.start c.internalMid ((c.outBuffers.insertIfNew c.internalMid m).getD c.internalMid m).outBuffer] :=
  rfl

@[simp] theorem popAndWrite_history : (c.popAndWrite m).history = c.history ++ [.handed m] := rfl

end

/-! ## What a send does -/

variable {conf : Config B} {m : BinMessage B} {c : Comm B}

theorem toNat_one : (1 : MessageId B).toNat = 1 :=
  BitVec.toNat_one (by rcases B.ulong_width with hb | hb <;> rw [hb] <;> decide)

/-- A new identifier is defined. -/
theorem newMid_ne (c : Comm B) : c.newMid.1 ≠ undefinedMessageid := by
  rw [newMid]
  simp only
  split
  · next hzero =>
      -- the counter wrapped to the undefined identifier, which was skipped
      intro hone
      have hnat := congrArg BitVec.toNat hone
      rw [hzero, show (undefinedMessageid : MessageId B) + 1 = 1 from BitVec.zero_add 1, toNat_one] at hnat
      cases hnat
  · next hne => exact hne

/-- Drawing an identifier changes the counter and nothing else. -/
theorem drawMid_snd : (drawMid conf m c).2 = c ∨ (drawMid conf m c).2 = c.newMid.2 := by
  rw [drawMid]
  split
  · exact .inr rfl
  · exact .inl rfl

@[simp] theorem drawMid_userSession : (drawMid conf m c).2.userSession = c.userSession := by
  rw [drawMid]; split <;> rfl

/-- **What `prepare_to_write` can do**: fail, with no session or because of the encoder, having drawn an
    identifier at most; or push the encoded message. -/
theorem prepareToWrite_cases (conf : Config B) (m : BinMessage B) (c : Comm B) :
    (∃ e, c.prepareToWrite conf m = ⟨.error e, stamped conf m c, (drawMid conf m c).2⟩
        ∧ (c.userSession = false ∨ conf.messageEncoder.performEncode (stamped conf m c) = .error e))
      ∨ ∃ outBuffer, c.userSession = true
          ∧ conf.messageEncoder.performEncode (stamped conf m c) = .ok outBuffer
          ∧ c.prepareToWrite conf m = ⟨.ok (drawMid conf m c).1, stamped conf m c,
              (drawMid conf m c).2.pushPrepearedMessage
                ⟨(drawMid conf m c).1, m.name, sendPriority conf m, outBuffer⟩⟩ := by
  rw [prepareToWrite]
  simp only [drawMid_userSession]
  cases hs : c.userSession with
  | false => exact .inl ⟨_, rfl, .inl rfl⟩
  | true =>
      cases henc : conf.messageEncoder.performEncode (stamped conf m c) with
      | error e      => exact .inl ⟨e, rfl, .inr rfl⟩
      | ok outBuffer => exact .inr ⟨outBuffer, rfl, rfl, rfl⟩

/-- **What a send keeps**: whatever a drawn identifier keeps, and a pushed message. -/
theorem prepareToWrite_invariant {P : Comm B → Prop} (m : BinMessage B) (h : P c) (hdraw : P c.newMid.2)
    (hpush : ∀ d p, P d → P (d.pushPrepearedMessage p)) : P (c.prepareToWrite conf m).comm := by
  have hdrawn : P (drawMid conf m c).2 := by
    rcases @drawMid_snd B conf m c with hd | hd
    · rw [hd]
      exact h
    · rw [hd]
      exact hdraw
  rcases prepareToWrite_cases conf m c with ⟨e, hp, -⟩ | ⟨out, -, -, hp⟩
  · rw [hp]
    exact hdrawn
  · rw [hp]
    exact hpush _ _ hdrawn

/-- The message is stamped, whether the send fails or not. -/
theorem prepareToWrite_message (m : BinMessage B) (c : Comm B) :
    (c.prepareToWrite conf m).message = stamped conf m c := by
  rcases prepareToWrite_cases conf m c with ⟨e, hp, -⟩ | ⟨out, -, -, hp⟩ <;> rw [hp]

theorem prepareToWrite_userSession (m : BinMessage B) (c : Comm B) :
    (c.prepareToWrite conf m).comm.userSession = c.userSession :=
  prepareToWrite_invariant (P := fun d => d.userSession = c.userSession) m rfl rfl (fun _ _ h => h)

end Comm

end Unicomm
