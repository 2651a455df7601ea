import Unicomm.Comm.System

/-!
# `Comm.Reading` — the incoming buffer and its flag

`mt_asio_read_handler` appends to `_in_buffer` and then stores true into `_in_buffer_updated`;
`mt_process_arrived` finds no complete frame and then stores false. Both are two steps, so one pair can fall
inside the other. `updated_of_frame`: received data is never forgotten as long as no handler stores true after a
processing thread has found nothing and before it stores false; a store there is overwritten, and the frame
waits until something else arrives.

Only the fields the Asio handlers write matter here. `ioState` collects them, and the first half of the module
says of every step what it does to them.
-/

namespace Unicomm

variable {B : Build}

/-- What the Asio handlers write, the outcome of writes apart. -/
@[ext] structure IoState where
  inBuffer        : Str
  inBufferUpdated : Bool
  inReadHandler   : Bool
  justConnected   : Bool
  connectPending  : Bool
  reads           : Nat
  readError       : Nat
  writeError      : Nat
  handshakeError  : Nat

/-- These fields after a step of the environment. -/
def IoState.after (r : IoState) : EnvAct B → IoState
  | .connectSuccess    => { r with justConnected := true, connectPending := false }
  | .handshake error   =>
      { r with handshakeError := error, justConnected := r.justConnected || error == 0, connectPending := false }
  | .readAppend bytes  =>
      { r with readError := 0, inBuffer := r.inBuffer ++ bytes, inReadHandler := true, reads := r.reads - 1 }
  | .readUpdated       => { r with inBufferUpdated := true, inReadHandler := false, reads := r.reads + 1 }
  | .readFail error    => { r with readError := error, reads := r.reads - 1 }
  | .writeDone _       => { r with writeError := 0 }
  | .writeFail _ error => { r with writeError := error }
  | _                  => r

namespace Comm

/-- These fields of a communicator. -/
def ioState (c : Comm B) : IoState where
  inBuffer        := c.inBuffer
  inBufferUpdated := c.inBufferUpdated
  inReadHandler   := c.inReadHandler
  justConnected   := c.justConnected
  connectPending  := c.connectPending
  reads           := c.socket.reads
  readError       := c.readError
  writeError      := c.writeError
  handshakeError  := c.handshakeError

variable {conf : Config B} {ch : Choice B}

/-! ## Who leaves these fields alone -/

@[simp] theorem ioState_log (es : List (Event B)) (c : Comm B) : (c.log es).ioState = c.ioState := rfl

@[simp] theorem ioState_callHandler (e : Event B) (outcome : Option Exc) (c : Comm B) :
    (c.callHandler e outcome).2.ioState = c.ioState := by
  rw [callHandler]; split <;> rfl

@[simp] theorem ioState_disconnect (c : Comm B) : c.disconnect.ioState = c.ioState := by
  rw [disconnect]; split <;> rfl

@[simp] theorem ioState_prepareToWrite (m : BinMessage B) (c : Comm B) :
    (c.prepareToWrite conf m).comm.ioState = c.ioState :=
  prepareToWrite_invariant (P := fun d => d.ioState = c.ioState) m rfl rfl (fun _ _ h => h)

theorem ioState_andThen (r : Option Exc × Comm B) {k : Comm B → Option Exc × Comm B}
    (hk : ∀ c, (k c).2.ioState = c.ioState) : (andThen r k).2.ioState = r.2.ioState := by
  obtain ⟨_ | e, c⟩ := r
  · exact hk c
  · rfl

@[simp] theorem ioState_regSent (it : SentMessageInfo B) (sent : List (SentMessageInfo B)) (c : Comm B) :
    (c.regSent conf ch it sent).ioState = c.ioState := by
  rw [regSent]; split <;> rfl

@[simp] theorem ioState_mtProcessSentLoop (sent : List (SentMessageInfo B)) (i : Nat) (c : Comm B) :
    (mtProcessSentLoop conf ch i sent c).2.ioState = c.ioState := by
  induction sent generalizing i c with
  | nil => rfl
  | cons it sent ih =>
      rw [mtProcessSentLoop, ← regSent]
      simp only [ioState_andThen _ (ih (i + 1)), ioState_callHandler, ioState_regSent]

@[simp] theorem ioState_processTimeoutsLoop (its : List (MessageId B × MessageTimeoutInfo)) (i : Nat) (c : Comm B) :
    (processTimeoutsLoop ch i its c).2.ioState = c.ioState := by
  induction its generalizing i c with
  | nil => rfl
  | cons p its ih =>
      obtain ⟨mid, info⟩ := p
      rw [processTimeoutsLoop]
      split
      · rw [ioState_andThen _ (ih (i + 1)), ioState_callHandler]
        rfl
      · exact ih i c

theorem ioState_offerMid (c : Comm B) : (c.offerMid conf).2.ioState = c.ioState := by
  rw [offerMid]; split <;> rfl

@[simp] theorem ioState_processReceived (m : BinMessage B) (c : Comm B) :
    (processReceived conf ch m c).2.ioState = c.ioState := by
  rw [processReceived, ← offerMid, ioState_andThen, ioState_callHandler, ioState_offerMid]
  intro c'
  split
  · rfl
  · simp only
    split <;> exact ioState_prepareToWrite _ c'

@[simp] theorem ioState_processIncoming (m : BinMessage B) (c : Comm B) :
    (processIncoming conf ch m c).2.ioState = c.ioState := by
  rw [processIncoming]
  split
  · rw [processReply]
    split
    · rfl
    · split
      · exact ioState_processReceived m (c.unregMessageTimeout m.rid)
      · rfl
  · exact ioState_processReceived m c

theorem ioState_mtHandleChError (c : Comm B) :
    c.mtHandleChError.2.ioState = { c.ioState with readError := 0, writeError := 0 } := by
  rw [mtHandleChError_snd]
  rfl

/-- A handshake error is thrown before a channel error is looked at. -/
theorem ioState_mtProcessErrors (c : Comm B) :
    (andThen c.mtHandleHandshakeError mtHandleChError).2.ioState
      = if c.handshakeError ≠ 0 then { c.ioState with handshakeError := 0 }
        else { c.ioState with readError := 0, writeError := 0 } := by
  rw [mtHandleHandshakeError]
  split
  · exact ioState_disconnect { c with handshakeError := 0 }
  · exact ioState_mtHandleChError c

theorem ioState_mtAsioWriteHandler (error : Nat) (intMid : MessageId B) (c : Comm B) :
    (c.mtAsioWriteHandler error intMid).ioState = { c.ioState with writeError := error } := by
  rw [mtAsioWriteHandler]
  simp only
  split
  · rfl
  · rw [mtRegSentMessage]
    split <;> rfl

/-- Connecting starts a read, however it ends. -/
theorem ioState_handleConnectedSuccess (c : Comm B) :
    (handleConnectedSuccess conf ch c).2.ioState = { c.ioState with reads := c.ioState.reads + 1 } := by
  rcases @handleConnectedSuccess_cases B conf ch c with h | ⟨_, h⟩ | ⟨_, h⟩ <;> rw [h] <;> rfl

/-! ## Who changes it -/

/-- **What a stage does to these fields**: connecting starts the first read, decoding takes a frame, one stage
    clears the flag and one the errors. -/
theorem runStage_ioState (conf : Config B) (ch : Choice B) (st : Stage B) (c : Comm B) :
    (runStage conf ch st c).1.ioState = match st with
      | .connect =>
          if c.justConnected then { c.ioState with justConnected := false, reads := c.ioState.reads + 1 }
          else c.ioState
      | .decode =>
          if c.inBufferUpdated && !ch.elapsed then
            { c.ioState with inBuffer := (mtPerformDecode conf c).2.inBuffer }
          else c.ioState
      | .clearUpdated => { c.ioState with inBufferUpdated := false }
      | .errors =>
          if c.handshakeError ≠ 0 then { c.ioState with handshakeError := 0 }
          else { c.ioState with readError := 0, writeError := 0 }
      | _ => c.ioState := by
  cases st with
  | connect =>
      simp only [runStage]
      split
      · rw [proceed_fst, ioState_handleConnectedSuccess]
        rfl
      · rfl
  | decode =>
      simp only [runStage]
      split
      -- the frame is taken whatever becomes of its message: dropped, answered or handled
      · have hdecode : (mtPerformDecode conf c).2.ioState
            = { c.ioState with inBuffer := (mtPerformDecode conf c).2.inBuffer } := by
          rw [mtPerformDecode]; split <;> rfl
        rcases hr : mtPerformDecode conf c with ⟨e | _ | m, c'⟩ <;> rw [hr] at hdecode
        · exact hdecode
        · exact hdecode
        · simp only [proceed_fst, ioState_processIncoming, hdecode]
      · rfl
  | sent =>
      simp only [runStage]
      split
      · rfl
      · rw [proceed_fst]
        exact ioState_mtProcessSentLoop _ 0 c
  | arrived => simp only [runStage]; split <;> rfl
  | clearUpdated => rfl
  | write => simp only [runStage]; split <;> [split; skip] <;> rfl
  | popping m => rfl
  | timeouts =>
      simp only [runStage]
      split
      · rw [proceed_fst]
        exact ioState_processTimeoutsLoop _ 0 c
      · rfl
  | errors =>
      simp only [runStage, proceed_fst]
      exact ioState_mtProcessErrors c
  | afterProcessed =>
      simp only [runStage]
      split
      · rw [proceed_fst, ioState_callHandler]
      · rfl

/-- Only one stage touches the flag. -/
theorem runStage_inBufferUpdated {st : Stage B} (hst : st ≠ .clearUpdated) (c : Comm B) :
    (runStage conf ch st c).1.inBufferUpdated = c.inBufferUpdated := by
  have hread := congrArg IoState.inBufferUpdated (runStage_ioState conf ch st c)
  cases st with
  | clearUpdated => exact absurd rfl hst
  | connect | decode | errors =>
      simp only at hread
      split at hread <;> exact hread
  | sent | arrived | write | popping m | timeouts | afterProcessed => exact hread

/-- No stage touches the read handler. -/
theorem runStage_inReadHandler (conf : Config B) (ch : Choice B) (st : Stage B) (c : Comm B) :
    (runStage conf ch st c).1.inReadHandler = c.inReadHandler := by
  have hread := congrArg IoState.inReadHandler (runStage_ioState conf ch st c)
  cases st with
  | connect | decode | errors =>
      simp only at hread
      split at hread <;> exact hread
  | sent | arrived | clearUpdated | write | popping m | timeouts | afterProcessed => exact hread

/-- Only one stage clears the errors. -/
theorem runStage_writeError {st : Stage B} (hst : st ≠ .errors) (c : Comm B) :
    (runStage conf ch st c).1.writeError = c.writeError := by
  have hread := congrArg IoState.writeError (runStage_ioState conf ch st c)
  cases st with
  | errors => exact absurd rfl hst
  | connect | decode =>
      simp only at hread
      split at hread <;> exact hread
  | sent | arrived | clearUpdated | write | popping m | timeouts | afterProcessed => exact hread

/-- Only decoding takes from the buffer. -/
theorem runStage_inBuffer (st : Stage B) (c : Comm B) :
    (runStage conf ch st c).1.inBuffer
      = if st = .decode ∧ (c.inBufferUpdated && !ch.elapsed) = true then (mtPerformDecode conf c).2.inBuffer
        else c.inBuffer := by
  have hread := congrArg IoState.inBuffer (runStage_ioState conf ch st c)
  cases st with
  | decode =>
      simp only at hread
      split at hread
      · next hopen => rw [if_pos ⟨rfl, hopen⟩]; exact hread
      · next hshut => rw [if_neg (fun h => hshut h.2)]; exact hread
  | connect | errors =>
      simp only at hread
      rw [if_neg (fun h => by cases h.1)]
      split at hread <;> exact hread
  | sent | arrived | clearUpdated | write | popping m | timeouts | afterProcessed =>
      rw [if_neg (fun h => by cases h.1)]
      exact hread

/-- **The flag is about to be cleared** only after `perform_decode` found no complete frame. -/
theorem runStage_goto_clearUpdated {st : Stage B} {c : Comm B}
    (h : (runStage conf ch st c).2 = .goto .clearUpdated) :
    st = .decode ∧ mtPerformDecode conf c = (.ok none, (runStage conf ch st c).1) := by
  have hno : ∀ (s' : Stage B) (r : Option Exc × Comm B), s' ≠ .clearUpdated →
      (proceed (.goto s') r).2 ≠ .goto .clearUpdated := fun s' r hs' =>
    proceed_snd_ne r (fun he => hs' (Next.goto.inj he)) (fun e he => by cases he)
  -- the stages that go on by `proceed` name their own next place, or raise
  cases st with
  | connect =>
      rw [runStage] at h
      split at h
      · exact absurd h (hno _ _ (fun he => by cases he))
      · cases h
  | sent =>
      rw [runStage] at h
      split at h
      · cases h
      · exact absurd h (hno _ _ (fun he => by cases he))
  | arrived => rw [runStage] at h; split at h <;> cases h
  | decode =>
      rw [runStage] at h ⊢
      split at h
      · next hopen =>
          rw [if_pos hopen]
          split at h
          · cases h
          · next c' hnone => exact ⟨rfl, by rw [hnone]⟩
          · exact absurd h (hno _ _ (fun he => by cases he))
      · cases h
  | clearUpdated => cases h
  | write =>
      rw [runStage] at h
      split at h
      · split at h <;> cases h
      · cases h
  | popping m => cases h
  | timeouts =>
      rw [runStage] at h
      split at h
      · exact absurd h (hno _ _ (fun he => by cases he))
      · cases h
  | errors => rw [runStage] at h; exact absurd h (hno _ _ (fun he => by cases he))
  | afterProcessed =>
      rw [runStage] at h
      split at h
      · exact absurd h (proceed_snd_ne _ (fun he => by cases he) (fun e he => by cases he))
      · cases h

/-- **What the environment does to them.** -/
theorem envStep_ioState {c c' : Comm B} {e : EnvAct B} (h : c.envStep conf e = some c') :
    c'.ioState = c.ioState.after e := by
  cases e with
  | send m =>
      cases h
      exact ioState_prepareToWrite m c
  | connectSuccess | handshake error | readAppend bytes | readUpdated | readFail error =>
      rw [envStep] at h
      split at h <;> cases h
      rfl
  | writeSome i n =>
      rw [envStep] at h
      split at h
      · split at h <;> cases h
        rfl
      · cases h
  | writeDone i | writeFail i error =>
      rw [envStep] at h
      split at h
      · next w _ =>
          split at h <;> cases h
          exact ioState_mtAsioWriteHandler _ w.intMid (c.setWrite i { w with pending := false })
      · cases h
  | disconnect =>
      cases h
      exact ioState_disconnect c

end Comm

namespace System

variable {conf : Config B}

/-- A stage step runs the stage the thread stands at. -/
theorem step_stage {s s' : System B} {ch : Choice B} (h : step conf s (.stage ch) = some s') :
    ∃ st, s.proc = some st
      ∧ s' = ⟨(Comm.runStage conf ch st s.comm).1, afterStage (Comm.runStage conf ch st s.comm).2⟩ := by
  rw [step] at h
  split at h
  · cases h
  · next st hst => cases h; exact ⟨st, hst, rfl⟩

/-! ## The flag -/

/-- The buffer holds a complete frame: the configured decoder finds a raw message in it. -/
abbrev HoldsFrame (conf : Config B) (s : System B) : Prop := conf.messageDecoder.Finds s.comm.inBuffer

/-- A step that **keeps the flag**: no handler stores true where a thread is about to store false, unless the
    buffer still holds no complete frame. -/
def KeepsFlag (conf : Config B) (s : System B) : Act B → Prop
  | .env .readUpdated => ¬ (s.proc = some .clearUpdated ∧ HoldsFrame conf s)
  | _                 => True

instance (s : System B) (a : Act B) : Decidable (KeepsFlag conf s a) := by
  unfold KeepsFlag
  split <;> infer_instance

/-- **Nothing is forgotten.** -/
structure FlagInv (conf : Config B) (s : System B) : Prop where
  /-- A complete frame is announced, or about to be. -/
  announced : HoldsFrame conf s → s.comm.inBufferUpdated = true ∨ s.comm.inReadHandler = true
  /-- A frame the thread did not find arrived since, and its handler has still to store true. -/
  clearing  : s.proc = some .clearUpdated → HoldsFrame conf s → s.comm.inReadHandler = true

theorem FlagInv.init (hempty : ¬ conf.messageDecoder.Finds []) (id : CommId) : FlagInv conf (System.init id) :=
  ⟨fun h => absurd h hempty, fun h => by cases h⟩

/-- What leaves the buffer, the flag and the handler alone keeps the invariant. -/
theorem FlagInv.same {s s' : System B} (hinv : FlagInv conf s) (hbuf : s'.comm.inBuffer = s.comm.inBuffer)
    (hflag : s'.comm.inBufferUpdated = s.comm.inBufferUpdated) (hin : s'.comm.inReadHandler = s.comm.inReadHandler)
    (hproc : s'.proc = some .clearUpdated → s.proc = some .clearUpdated) : FlagInv conf s' := by
  constructor
  · rw [HoldsFrame, hbuf, hflag, hin]
    exact hinv.announced
  · rw [HoldsFrame, hbuf, hin]
    exact fun hp => hinv.clearing (hproc hp)

/-- The environment, as long as it keeps the flag. -/
theorem FlagInv.envStep {s : System B} {e : EnvAct B} {c : Comm B} (hinv : FlagInv conf s)
    (hok : KeepsFlag conf s (.env e)) (h : s.comm.envStep conf e = some c) : FlagInv conf { s with comm := c } := by
  have hread := Comm.envStep_ioState h
  cases e with
  | readAppend bytes =>
      have hin : c.inReadHandler = true := congrArg IoState.inReadHandler hread
      exact ⟨fun _ => .inr hin, fun _ _ => hin⟩
  | readUpdated =>
      have hbuf : c.inBuffer = s.comm.inBuffer := congrArg IoState.inBuffer hread
      have hflag : c.inBufferUpdated = true := congrArg IoState.inBufferUpdated hread
      refine ⟨fun _ => .inl hflag, fun hp hframe => ?_⟩
      rw [HoldsFrame, hbuf] at hframe
      exact absurd ⟨hp, hframe⟩ hok
  | send m | connectSuccess | handshake error | readFail error | writeSome i n | writeDone i | writeFail i error
  | disconnect =>
      exact hinv.same (congrArg IoState.inBuffer hread) (congrArg IoState.inBufferUpdated hread)
        (congrArg IoState.inReadHandler hread) id

theorem afterStage_eq_some {n : Comm.Next B} {st : Comm.Stage B} : afterStage n = some st ↔ n = .goto st := by
  cases n <;> simp [afterStage]

/-- Finding no complete frame leaves the buffer without one. -/
theorem not_holdsFrame_of_mtPerformDecode_none {c c' : Comm B}
    (h : Comm.mtPerformDecode conf c = (.ok none, c')) : ¬ conf.messageDecoder.Finds c'.inBuffer := by
  rw [Comm.mtPerformDecode] at h
  split at h
  · by_cases hfinds : conf.messageDecoder.Finds c.inBuffer
    · -- a complete frame would have been decoded, with or without success
      rw [MessageDecoder.performDecode_of_finds hfinds] at h
      cases hd : conf.messageDecoder.decodeMessage (conf.messageDecoder.foundIn c.inBuffer) <;> rw [hd] at h <;> cases h
    · rw [MessageDecoder.performDecode_of_not_finds hfinds] at h
      cases h
      exact hfinds
  · cases h

/-- Where the decoder finds nothing, it leaves the buffer as it is. -/
theorem finds_of_finds_mtPerformDecode {c : Comm B}
    (h : conf.messageDecoder.Finds (Comm.mtPerformDecode conf c).2.inBuffer) :
    conf.messageDecoder.Finds c.inBuffer := by
  by_contra hno
  rw [Comm.mtPerformDecode, MessageDecoder.performDecode_of_not_finds hno] at h
  split at h <;> exact hno h

/-- Every stage keeps the invariant. -/
theorem FlagInv.stage {s s' : System B} {ch : Choice B} (hinv : FlagInv conf s)
    (h : System.step conf s (.stage ch) = some s') : FlagInv conf s' := by
  obtain ⟨st, hst, rfl⟩ := step_stage h
  have hin := Comm.runStage_inReadHandler conf ch st s.comm
  have hfinds : conf.messageDecoder.Finds (Comm.runStage conf ch st s.comm).1.inBuffer → HoldsFrame conf s := by
    rw [Comm.runStage_inBuffer]
    split
    · exact finds_of_finds_mtPerformDecode
    · exact id
  constructor
  · intro hframe
    rw [hin]
    by_cases hclear : st = .clearUpdated
    · -- what the thread did not find, its handler has still to announce
      subst hclear
      exact .inr (hinv.clearing hst (hfinds hframe))
    · rw [Comm.runStage_inBufferUpdated hclear]
      exact hinv.announced (hfinds hframe)
  · intro hproc hframe
    obtain ⟨rfl, hnone⟩ := Comm.runStage_goto_clearUpdated (afterStage_eq_some.mp hproc)
    exact absurd hframe (not_holdsFrame_of_mtPerformDecode_none hnone)

/-- Every step that keeps the flag keeps the invariant. -/
theorem FlagInv.step {s s' : System B} {a : Act B} (hinv : FlagInv conf s) (hok : KeepsFlag conf s a)
    (h : System.step conf s a = some s') : FlagInv conf s' := by
  cases a with
  | env e =>
      obtain ⟨c, hc, rfl⟩ := Option.map_eq_some_iff.mp h
      exact hinv.envStep hok hc
  | enter =>
      rw [System.step] at h
      split at h <;> cases h
      exact hinv.same rfl rfl rfl (fun hp => by cases hp)
  | stage ch => exact hinv.stage h

/-- The invariant holds after every run whose steps keep the flag. -/
theorem FlagInv.run (hempty : ¬ conf.messageDecoder.Finds []) {id : CommId} {as : List (Act B)} {s : System B}
    (hg : Machine.Guarded (System.step conf) (KeepsFlag conf) (System.init id) as)
    (h : Machine.run (System.step conf) (System.init id) as = some s) : FlagInv conf s :=
  Machine.run_guarded_invariant (FlagInv conf) (fun _ _ _ hi hok hs => hi.step hok hs) as _ _
    (FlagInv.init hempty id) hg h

/-- **Received data is never forgotten** when every step keeps the flag: outside the read handler, a complete
    frame in the buffer is announced by the flag, so `mt_process` will decode it. And it is forgotten when a
    step does not: the thread that found nothing stores false, leaves its loop, and the frame stays unannounced.
    Of the decoder nothing is asked but that it finds no message in an empty buffer. -/
theorem updated_of_frame (hempty : ¬ conf.messageDecoder.Finds []) {id : CommId} {as : List (Act B)} {s : System B}
    (hg : Machine.Guarded (System.step conf) (KeepsFlag conf) (System.init id) as)
    (h : Machine.run (System.step conf) (System.init id) as = some s) :
    (s.comm.inReadHandler = false → HoldsFrame conf s →
        s.comm.inBufferUpdated = true ∧ s.comm.mtIsUnprocessedIncoming = true)
      ∧ ∀ a s', System.step conf s a = some s' → ¬ KeepsFlag conf s a → ∀ ch ch', ∃ t,
          Machine.run (System.step conf) s' [.stage ch, .stage ch'] = some t ∧ t.proc = some .write
            ∧ t.comm.inReadHandler = false ∧ HoldsFrame conf t ∧ t.comm.inBufferUpdated = false := by
  constructor
  · intro hin hframe
    have hflag : s.comm.inBufferUpdated = true :=
      ((FlagInv.run hempty hg h).announced hframe).resolve_right (by rw [hin]; decide)
    refine ⟨hflag, ?_⟩
    rw [Comm.mtIsUnprocessedIncoming, hflag, Bool.and_true, Bool.not_eq_true', List.isEmpty_eq_false_iff]
    -- the buffer is not empty, for there is no frame in an empty one
    intro hnil
    rw [HoldsFrame, hnil] at hframe
    exact hempty hframe
  -- only the announcement is guarded; behind it the thread stores false and leaves its loop
  · intro a s' hs' hbad ch ch'
    cases a with
    | enter | stage _ => exact absurd trivial hbad
    | env e =>
        cases e with
        | readUpdated =>
            obtain ⟨hproc, hframe⟩ := not_not.mp hbad
            obtain ⟨c, hc, rfl⟩ := Option.map_eq_some_iff.mp hs'
            have hread := Comm.envStep_ioState hc
            have hbuf : c.inBuffer = s.comm.inBuffer := congrArg IoState.inBuffer hread
            have hin : c.inReadHandler = false := congrArg IoState.inReadHandler hread
            have hframe' : conf.messageDecoder.Finds c.inBuffer := by rw [hbuf]; exact hframe
            refine ⟨⟨{ c with inBufferUpdated := false }, some .write⟩, ?_, rfl, hin, hframe', rfl⟩
            simp only [Machine.run, System.step, hproc, Comm.runStage, afterStage, Option.bind_some, Bool.false_and,
              Bool.false_eq_true, if_false]
        | send _ | connectSuccess | handshake _ | readAppend _ | readFail _ | writeSome _ _ | writeDone _
        | writeFail _ _ | disconnect => exact absurd trivial hbad

/-- The connection is established, and a frame arrives in one piece. -/
def arrival : List (Act .lp64) :=
  [.env .connectSuccess, .enter, .stage .plain, .env (.readAppend [1, 255]), .env .readUpdated]

/-- It is announced. -/
theorem updated_of_frame_arrival : ∃ s, Machine.run (System.step Config.plain) (System.init 0) arrival = some s
    ∧ s.comm.inBufferUpdated = true ∧ s.comm.mtIsUnprocessedIncoming = true :=
  ⟨_, rfl, (updated_of_frame (by decide) (by decide +kernel)
    (rfl : Machine.run (System.step Config.plain) (System.init 0) arrival = some _)).1 rfl (by decide +kernel)⟩

/-- **A frame is forgotten.** The thread finds half a frame; the other half arrives and is announced before the
    thread clears the flag. -/
theorem updated_lost : ∃ s, Machine.run (System.step Config.plain) (System.init 0)
      [.env .connectSuccess, .enter, .stage .plain, .stage .plain, .env (.readAppend [1]), .env .readUpdated,
        .stage .plain, .stage .plain, .env (.readAppend [255]), .env .readUpdated, .stage .plain, .stage .plain]
      = some s
    ∧ s.proc = some .write ∧ s.comm.inReadHandler = false ∧ HoldsFrame Config.plain s
    ∧ s.comm.inBufferUpdated = false :=
  ⟨_, rfl, rfl, rfl, by decide +kernel, rfl⟩

end System

end Unicomm
