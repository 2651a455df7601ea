import Unicomm.Comm.Reading
import Unicomm.Comm.WriteStream

/-!
# `Comm.WriteErrors` — what becomes of a failed write

All writes of a communicator share `_write_error`. A completion handler stores its error there, success
included, under `_write_err_mutex`; `mt_handle_ch_error` reads both channel errors and clears them under
`_read_err_mutex`. So an error is lost when a write that succeeds completes after one that failed, and when a
write fails between the read and the clear. `write_error_kept`: in every other run a failed write ends in a
`disconnected_error`.

An `ErrorSystem` is a `System` whose errors stage is cut in these two halves. Between them the lock keeps read
completions out, but not write completions.
-/

namespace Unicomm

variable {B : Build} {conf : Config B} {ch : Choice B}

namespace Comm

/-! ## `mt_handle_ch_error` in two halves -/

/-- The error `mt_handle_ch_error` reads. -/
def chError (c : Comm B) : Nat := if c.readError ≠ 0 then c.readError else c.writeError

/-- How it ends, having read `error`. -/
def chErrorNext (error : Nat) : Next B :=
  if error ≠ 0 then .raised (.disconnectedError error "Channel error") else .goto .afterProcessed

theorem chError_ne_zero {c : Comm B} (h : c.writeError ≠ 0) : c.chError ≠ 0 := by
  rw [chError]
  split
  · next hread => exact hread
  · exact h

/-- Both halves without a break are the errors stage, when there is no handshake error. -/
theorem runStage_errors {c : Comm B} (h : c.handshakeError = 0) :
    runStage conf ch .errors c = ({ c with readError := 0, writeError := 0 }, chErrorNext c.chError) := by
  rw [runStage, mtHandleHandshakeError, if_neg (not_not.mpr h), andThen, mtHandleChError, chErrorNext, ← chError]
  split <;> rfl

theorem disconnect_writeError (c : Comm B) : c.disconnect.writeError = c.writeError := by
  rw [disconnect]; split <;> rfl

/-! ## A handshake error, and no session -/

/-- **Whoever has a session has no handshake error**; nor is there one while the connection is pending. -/
structure HandshakeInv (c : Comm B) : Prop where
  pending   : c.connectPending = true → c.justConnected = false ∧ c.userSession = false ∧ c.handshakeError = 0
  connected : c.justConnected = true ∨ c.userSession = true → c.handshakeError = 0

theorem HandshakeInv.create (id : CommId) : (Comm.create id : Comm B).HandshakeInv :=
  ⟨fun _ => ⟨rfl, rfl, rfl⟩, fun _ => rfl⟩

theorem HandshakeInv.effect {c c' : Comm B} (he : Effect conf ch c c') (h : c.HandshakeInv) : c'.HandshakeInv := by
  cases he with
  | connected hjc =>
      refine ⟨fun hp => ?_, fun _ => h.connected (.inl hjc)⟩
      rw [(h.pending hp).1] at hjc
      cases hjc
  | ctorThrew hjc hs | nullSession hjc hs =>
      exact ⟨fun hp => ⟨rfl, (h.pending hp).2⟩, fun _ => h.connected (.inl hjc)⟩
  | sent hs hsent => rw [regSent]; split <;> exact ⟨h.pending, h.connected⟩
  | handshakeError =>
      have hpending := fun hp => h.pending hp
      rw [disconnect]
      split <;> exact ⟨fun hp => ⟨(hpending hp).1, (hpending hp).2.1, rfl⟩, fun _ => rfl⟩
  | taken | drawn | request | reply | discarded | pushed | clearUpdated | timeout | channelError | afterProcessed =>
      exact ⟨h.pending, h.connected⟩

/-- The environment creates no session. -/
theorem envStep_userSession {c c' : Comm B} {e : EnvAct B} (h : c.envStep conf e = some c') :
    c'.userSession = c.userSession := by
  rcases envStep_cases h with ⟨m, rfl, rfl⟩ | he
  · exact prepareToWrite_userSession m c
  · exact (envStep_frame h he).1

theorem HandshakeInv.envStep {c c' : Comm B} {e : EnvAct B} (h : c.HandshakeInv)
    (hstep : c.envStep conf e = some c') : c'.HandshakeInv := by
  have hio := envStep_ioState hstep
  have hsess := envStep_userSession hstep
  cases e with
  | connectSuccess =>
      rw [Comm.envStep] at hstep
      split at hstep <;> cases hstep
      next hp => exact ⟨fun hno => (by cases hno), fun _ => (h.pending hp).2.2⟩
  | handshake error =>
      rw [Comm.envStep] at hstep
      split at hstep <;> cases hstep
      next hp =>
        obtain ⟨hjc, hs, -⟩ := h.pending hp
        refine ⟨fun hno => (by cases hno), fun hconn => ?_⟩
        simp only [hjc, hs, Bool.false_or, Bool.false_eq_true, or_false] at hconn
        exact beq_iff_eq.mp hconn
  | send m | readAppend bytes | readUpdated | readFail error | writeSome i n | writeDone i | writeFail i error
  | disconnect =>
      have hjc : c'.justConnected = c.justConnected := congrArg IoState.justConnected hio
      have hcp : c'.connectPending = c.connectPending := congrArg IoState.connectPending hio
      have hhs : c'.handshakeError = c.handshakeError := congrArg IoState.handshakeError hio
      exact ⟨by rw [hcp, hjc, hsess, hhs]; exact h.pending, by rw [hjc, hsess, hhs]; exact h.connected⟩

/-- **Only a communicator with a session has written anything.** -/
def WritesInSession (c : Comm B) : Prop := c.userSession = false → c.socket.writes = []

theorem WritesInSession.effect {c c' : Comm B} (he : Effect conf ch c c') (h : c.WritesInSession) :
    c'.WritesInSession := by
  intro hno
  rw [he.sameWire.2.1]
  refine h (Bool.eq_false_iff.mpr (fun hs => ?_))
  rw [he.userSession hs] at hno
  cases hno

/-- Where nothing was written, the environment has nothing to transfer or complete. -/
theorem WritesInSession.envStep {c c' : Comm B} {e : EnvAct B} (h : c.WritesInSession)
    (hstep : c.envStep conf e = some c') : c'.WritesInSession := by
  intro hno
  have hnil : c.socket.writes = [] := h ((envStep_userSession hstep).symm.trans hno)
  have hpending : ∀ i, c.pendingWrite i = none := fun i => by rw [pendingWrite, hnil]; rfl
  cases e with
  | send m =>
      cases hstep
      exact (send_sameWire m c).2.1.trans hnil
  | connectSuccess | handshake error | readAppend bytes | readUpdated | readFail error =>
      rw [Comm.envStep] at hstep
      split at hstep <;> cases hstep
      exact hnil
  | writeSome i n | writeDone i | writeFail i error =>
      rw [Comm.envStep, hpending] at hstep
      cases hstep
  | disconnect =>
      cases hstep
      rw [disconnect]
      split <;> exact hnil

theorem WritesInSession.step {s s' : System B} {a : System.Act B} (h : s.comm.WritesInSession) (hinv : s.Inv)
    (hs : System.step conf s a = some s') : s'.comm.WritesInSession := by
  rcases System.step_cases conf hinv.session hs with ⟨e, c, -, hc, rfl⟩ | ⟨-, -, rfl⟩ | ⟨ch, m, -, hm, rfl⟩
    | ⟨ch, st, -, -, -, heff, -⟩
  · exact h.envStep hc
  · exact h
  · -- what is written was queued, which needs a session
    intro hno
    have hmem := hinv.copied m hm
    rw [hinv.session.queue hno] at hmem
    exact absurd hmem List.not_mem_nil
  · exact heff.invariant (fun _ _ he hi => hi.effect he) h

end Comm

/-! ## Systems with a divided errors stage -/

/-- A system and the thread's place inside `mt_handle_ch_error`. -/
structure ErrorSystem (B : Build) where
  system     : System B
  /-- The thread holds `_read_err_mutex`, has read this error and is about to clear both. -/
  found      : Option Nat
  /-- A write failed and no `disconnected_error` was thrown since. **No step reads it.** -/
  unreported : Bool

/-- Whether the handler of a completion locks `_read_err_mutex`. -/
def EnvAct.locksReadError : EnvAct B → Bool
  | .readAppend _ | .readFail _ => true
  | _                           => false

/-- Whether a write fails. -/
def EnvAct.failsWrite : EnvAct B → Bool
  | .writeFail _ _ => true
  | _              => false

namespace ErrorSystem

/-- The atomic steps. -/
inductive Act (B : Build) where
  | env (e : EnvAct B)
  | enter
  /-- Any stage but the errors stage. -/
  | stage (ch : Choice B)
  /-- The errors stage as far as the read of the channel errors, the lock being free. -/
  | readErrors
  /-- The rest of it. -/
  | clearErrors

/-- One step. -/
def step (conf : Config B) (s : ErrorSystem B) : Act B → Option (ErrorSystem B)
  | .env e =>
      if s.found.isSome && e.locksReadError then none
      else (System.step conf s.system (.env e)).map (fun t =>
        { s with system := t, unreported := s.unreported || e.failsWrite })
  | .enter => (System.step conf s.system .enter).map (fun t => { s with system := t })
  | .stage ch =>
      if s.system.proc = some .errors then none
      else (System.step conf s.system (.stage ch)).map (fun t => { s with system := t })
  | .readErrors =>
      if s.system.proc = some .errors ∧ s.found = none ∧ s.system.comm.inReadHandler = false then
        match s.system.comm.mtHandleHandshakeError with
        | (some _, c) => some { s with system := ⟨c, none⟩ }
        | (none, c)   => some { s with system := ⟨c, some .errors⟩, found := some c.chError }
      else none
  | .clearErrors =>
      match s.found with
      | some error => some {
          system := ⟨{ s.system.comm with readError := 0, writeError := 0 },
            System.afterStage (Comm.chErrorNext error)⟩
          found := none
          unreported := s.unreported && error == 0 }
      | none => none

/-- The second half is always possible once the first was taken. -/
theorem step_clearErrors {s : ErrorSystem B} {error : Nat} (h : s.found = some error) :
    step conf s .clearErrors = some {
      system := ⟨{ s.system.comm with readError := 0, writeError := 0 }, System.afterStage (Comm.chErrorNext error)⟩
      found := none
      unreported := s.unreported && error == 0 } := by
  rw [step, h]

/-- A freshly accepted or connected communicator. -/
def init (id : CommId) : ErrorSystem B := ⟨System.init id, none, false⟩

/-- **The two halves, one right after the other, are the errors stage.** -/
theorem readErrors_clearErrors {s t : ErrorSystem B} (hs : s.system.comm.handshakeError = 0)
    (h : Machine.run (step conf) s [.readErrors, .clearErrors] = some t) :
    System.step conf s.system (.stage ch) = some t.system := by
  obtain ⟨s', hread, hclear⟩ := Machine.run_cons_eq_some.mp h
  obtain ⟨t', hclear, ht⟩ := Machine.run_cons_eq_some.mp hclear
  cases ht
  rw [step] at hread
  split at hread
  · next hhere =>
      rw [Comm.mtHandleHandshakeError, if_neg (not_not.mpr hs)] at hread
      cases hread
      cases hclear
      rw [System.step, hhere.1]
      exact congrArg (fun r => some (⟨r.1, System.afterStage r.2⟩ : System B)) (Comm.runStage_errors hs)
  · cases hread

/-! ## What every run keeps -/

/-- Recorded errors belong to failed writes nothing was thrown for, and only a communicator with a session has
    any. -/
structure Inv (s : ErrorSystem B) : Prop where
  base      : s.system.Inv
  writes    : s.system.comm.WritesInSession
  handshake : s.system.comm.HandshakeInv
  /-- The lock is held by a thread in the errors stage. -/
  holder    : s.found ≠ none → s.system.proc = some .errors
  session   : s.unreported = true → s.system.comm.userSession = true
  failed    : s.system.comm.writeError ≠ 0 → s.unreported = true

theorem Inv.init (id : CommId) : (ErrorSystem.init id : ErrorSystem B).Inv :=
  ⟨.init id, fun _ => rfl, .create id, fun h => absurd rfl h, fun h => Bool.noConfusion h, fun h => absurd rfl h⟩

/-- A write that is pending belongs to a session. -/
theorem Inv.userSession_of_pending {s : ErrorSystem B} (hinv : s.Inv) {i : Nat} {w : AsyncWrite B}
    (hw : s.system.comm.pendingWrite i = some w) : s.system.comm.userSession = true := by
  by_contra hno
  have hget := (Option.filter_eq_some_iff.mp hw).1
  rw [hinv.writes (Bool.eq_false_iff.mpr hno)] at hget
  cases hget

/-- A base step other than the errors stage. -/
theorem Inv.of_base {s : ErrorSystem B} {t : System B} {a : System.Act B} (hinv : s.Inv)
    (h : System.step conf s.system a = some t) :
    t.Inv ∧ t.comm.WritesInSession ∧ t.comm.HandshakeInv
      ∧ (s.system.comm.userSession = true → t.comm.userSession = true) := by
  refine ⟨hinv.base.step h, hinv.writes.step hinv.base h, ?_⟩
  rcases System.step_cases conf hinv.base.session h with ⟨e, c, -, hc, rfl⟩ | ⟨-, -, rfl⟩ | ⟨ch, m, -, -, rfl⟩
    | ⟨ch, st, -, -, -, heff, -⟩
  · exact ⟨hinv.handshake.envStep hc, fun hs => (Comm.envStep_userSession hc).trans hs⟩
  · exact ⟨hinv.handshake, id⟩
  · exact ⟨⟨hinv.handshake.pending, hinv.handshake.connected⟩, id⟩
  · exact ⟨heff.invariant (fun _ _ he hi => hi.effect he) hinv.handshake,
      fun hs => heff.invariant (fun _ _ he hi => he.userSession hi) hs⟩

/-- What either half of the errors stage does to the communicator. -/
theorem Inv.of_effect {s : ErrorSystem B} {c : Comm B} {p : Option (Comm.Stage B)} (hinv : s.Inv)
    (he : Comm.Effect conf ch s.system.comm c) (hp : ∀ m, p ≠ some (.popping m)) :
    System.Inv ⟨c, p⟩ ∧ c.WritesInSession ∧ c.HandshakeInv
      ∧ (s.system.comm.userSession = true → c.userSession = true) := by
  exact ⟨⟨hinv.base.session.effect he, fun m hm => absurd hm (hp m)⟩, hinv.writes.effect he,
    hinv.handshake.effect he, he.userSession⟩

/-- **What a step does**: an environment step, entering or a stage other than the errors stage, and the two
    halves of that one, the first of which may throw a handshake error. -/
theorem step_cases {s s' : ErrorSystem B} {a : Act B} (hinv : s.Inv) (h : step conf s a = some s') :
    (∃ e c, a = .env e ∧ s.system.comm.envStep conf e = some c
        ∧ s' = { s with system := { s.system with comm := c }, unreported := s.unreported || e.failsWrite })
      ∨ ((a = .enter ∨ ∃ ch, a = .stage ch) ∧ s.found = none
          ∧ ∃ t b, System.step conf s.system b = some t ∧ t.comm.writeError = s.system.comm.writeError
            ∧ s' = { s with system := t })
      ∨ (a = .readErrors ∧ s.found = none ∧ s.system.comm.handshakeError ≠ 0
          ∧ s' = { s with system := ⟨Comm.disconnect { s.system.comm with handshakeError := 0 }, none⟩ })
      ∨ (a = .readErrors ∧ s.found = none ∧ s.system.proc = some .errors
          ∧ s' = { s with found := some s.system.comm.chError })
      ∨ ∃ error, a = .clearErrors ∧ s.found = some error
          ∧ s' = { system := ⟨{ s.system.comm with readError := 0, writeError := 0 },
                     System.afterStage (Comm.chErrorNext error)⟩,
                   found := none, unreported := s.unreported && error == 0 } := by
  cases a with
  | env e =>
      rw [step] at h
      split at h
      · cases h
      · obtain ⟨t, ht, rfl⟩ := Option.map_eq_some_iff.mp h
        obtain ⟨c, hc, rfl⟩ := Option.map_eq_some_iff.mp ht
        exact .inl ⟨e, c, rfl, hc, rfl⟩
  | enter =>
      obtain ⟨t, ht, rfl⟩ := Option.map_eq_some_iff.mp h
      -- a thread between the halves stands in the errors stage, so nobody enters
      have hfree : s.found = none := by
        by_contra hheld
        rw [System.step, hinv.holder hheld] at ht
        cases ht
      refine .inr (.inl ⟨.inl rfl, hfree, t, .enter, ht, ?_, rfl⟩)
      rw [System.step] at ht
      split at ht <;> cases ht
      rfl
  | stage ch =>
      rw [step] at h
      split at h
      · cases h
      · next hother =>
          obtain ⟨t, ht, rfl⟩ := Option.map_eq_some_iff.mp h
          -- and no other stage runs then
          have hfree : s.found = none := by
            by_contra hheld
            exact hother (hinv.holder hheld)
          refine .inr (.inl ⟨.inr ⟨ch, rfl⟩, hfree, t, .stage ch, ht, ?_, rfl⟩)
          obtain ⟨st, hst, rfl⟩ := System.step_stage ht
          have hne : st ≠ .errors := fun he => hother (he ▸ hst)
          exact Comm.runStage_writeError hne s.system.comm
  | readErrors =>
      rw [step] at h
      split at h
      · next hhere =>
          rw [Comm.mtHandleHandshakeError] at h
          -- the handshake error is thrown before the channel errors are looked at
          by_cases hhs : s.system.comm.handshakeError = 0
          · rw [if_neg (not_not.mpr hhs)] at h
            cases h
            refine .inr (.inr (.inr (.inl ⟨rfl, hhere.2.1, hhere.1, ?_⟩)))
            rw [← hhere.1]
          · rw [if_pos hhs] at h
            cases h
            exact .inr (.inr (.inl ⟨rfl, hhere.2.1, hhs, rfl⟩))
      · cases h
  | clearErrors =>
      rw [step] at h
      split at h
      · next error hfound =>
          cases h
          exact .inr (.inr (.inr (.inr ⟨error, rfl, hfound, rfl⟩)))
      · cases h

theorem afterStage_chErrorNext (error : Nat) (m : PrepearedMessage B) :
    System.afterStage (Comm.chErrorNext error) ≠ some (.popping m) := by
  rw [Comm.chErrorNext]
  split <;> (intro h; cases h)

theorem Inv.step {s s' : ErrorSystem B} {a : Act B} (hinv : s.Inv) (h : step conf s a = some s') : s'.Inv := by
  rcases step_cases hinv h with ⟨e, c, rfl, hc, rfl⟩ | ⟨-, hfree, t, b, ht, hkeep, rfl⟩ | ⟨-, hfree, -, rfl⟩
    | ⟨-, -, hproc, rfl⟩ | ⟨error, -, -, rfl⟩
  · -- the environment: only a failed write records an error, and that needs a session
    have hstep : System.step conf s.system (.env e) = some { s.system with comm := c } := by
      rw [System.step, hc]; rfl
    obtain ⟨hbase, hwrites, hhs, hsess⟩ := hinv.of_base hstep
    have herr : c.writeError = (s.system.comm.ioState.after e).writeError :=
      congrArg IoState.writeError (Comm.envStep_ioState hc)
    refine ⟨hbase, hwrites, hhs, hinv.holder, fun hun => ?_, fun hne => ?_⟩
    · cases e with
      | writeFail i error =>
          rw [Comm.envStep] at hc
          split at hc
          · next w hw => exact hsess (hinv.userSession_of_pending hw)
          · cases hc
      | send | connectSuccess | handshake | readAppend | readUpdated | readFail | writeSome | writeDone
      | disconnect => exact hsess (hinv.session ((Bool.or_false _).symm.trans hun))
    · change c.writeError ≠ 0 at hne
      rw [herr] at hne
      cases e with
      | writeFail i error => exact Bool.or_true _
      | writeDone i => exact absurd rfl hne
      | send | connectSuccess | handshake | readAppend | readUpdated | readFail | writeSome | disconnect =>
          exact (Bool.or_false _).trans (hinv.failed hne)
  · -- a stage other than the errors stage
    obtain ⟨hbase, hwrites, hhs, hsess⟩ := hinv.of_base ht
    exact ⟨hbase, hwrites, hhs, fun hheld => absurd hfree hheld, fun hun => hsess (hinv.session hun),
      fun hne => hinv.failed (by rw [← hkeep]; exact hne)⟩
  · -- a handshake error is thrown
    have heff : Comm.Effect conf .plain s.system.comm _ := .handshakeError
    obtain ⟨hbase, hwrites, hhs, hsess⟩ := hinv.of_effect (p := none) heff (fun m hm => by cases hm)
    refine ⟨hbase, hwrites, hhs, fun hheld => absurd hfree hheld, fun hun => hsess (hinv.session hun), fun hne => ?_⟩
    exact hinv.failed (fun hzero => hne ((Comm.disconnect_writeError _).trans hzero))
  · -- the errors are read
    exact ⟨hinv.base, hinv.writes, hinv.handshake, fun _ => hproc, hinv.session, hinv.failed⟩
  · -- and cleared
    have heff : Comm.Effect conf .plain s.system.comm _ := .channelError
    obtain ⟨hbase, hwrites, hhs, hsess⟩ := hinv.of_effect heff (afterStage_chErrorNext error)
    exact ⟨hbase, hwrites, hhs, fun hheld => absurd rfl hheld,
      fun hun => hsess (hinv.session (Bool.and_eq_true_iff.mp hun).1), fun hne => absurd rfl hne⟩

/-! ## Which runs keep the error -/

/-- A step that **keeps the write error**: no write succeeds while an error is recorded that no thread has read,
    and none fails between a read that found no error and the clear. -/
def KeepsWriteError (s : ErrorSystem B) : Act B → Prop
  | .env (.writeDone _)   => s.found = none → s.system.comm.writeError = 0
  | .env (.writeFail _ _) => s.found ≠ some 0
  | _                     => True

instance (s : ErrorSystem B) (a : Act B) : Decidable (s.KeepsWriteError a) := by
  unfold KeepsWriteError
  split <;> infer_instance

/-- A failed write left no trace, and nothing was thrown. -/
def Lost (s : ErrorSystem B) : Prop := s.unreported = true ∧ s.found = none ∧ s.system.comm.writeError = 0

/-- **What nothing was thrown for is still recorded**, or was read by the thread that will throw. -/
structure Kept (s : ErrorSystem B) : Prop where
  recorded : s.unreported = true → s.found = none → s.system.comm.writeError ≠ 0
  read     : s.unreported = true → ∀ error, s.found = some error → error ≠ 0

theorem Kept.step {s s' : ErrorSystem B} {a : Act B} (hinv : s.Inv) (hkept : s.Kept) (hok : s.KeepsWriteError a)
    (h : ErrorSystem.step conf s a = some s') : s'.Kept := by
  rcases step_cases hinv h with ⟨e, c, rfl, hc, rfl⟩ | ⟨-, -, t, b, -, hsame, rfl⟩ | ⟨-, -, -, rfl⟩
    | ⟨-, hfree, -, rfl⟩ | ⟨error, -, hfound, rfl⟩
  · have herr : c.writeError = (s.system.comm.ioState.after e).writeError :=
      congrArg IoState.writeError (Comm.envStep_ioState hc)
    cases e with
    | writeFail i error =>
        have hne : error ≠ 0 := by
          rw [Comm.envStep] at hc
          split at hc
          · split at hc
            · next hne => exact hne
            · cases hc
          · cases hc
        exact ⟨fun _ _ hzero => hne (herr.symm.trans hzero), fun _ found hfound hzero => hok (hzero ▸ hfound)⟩
    | writeDone i =>
        have hun : (s.unreported || EnvAct.failsWrite (.writeDone i : EnvAct B)) = s.unreported := Bool.or_false _
        refine ⟨fun hun' hfree => absurd (hok hfree) (hkept.recorded (hun.symm.trans hun') hfree), fun hun' => ?_⟩
        exact hkept.read (hun.symm.trans hun')
    | send | connectSuccess | handshake | readAppend | readUpdated | readFail | writeSome | disconnect =>
        refine ⟨fun hun hfree hzero => ?_, fun hun => hkept.read ((Bool.or_false _).symm.trans hun)⟩
        exact hkept.recorded ((Bool.or_false _).symm.trans hun) hfree (herr.symm.trans hzero)
  · exact ⟨fun hun hfree hzero => hkept.recorded hun hfree (hsame.symm.trans hzero), hkept.read⟩
  · have hsame := Comm.disconnect_writeError { s.system.comm with handshakeError := 0 }
    exact ⟨fun hun hfree hzero => hkept.recorded hun hfree (hsame.symm.trans hzero), hkept.read⟩
  · refine ⟨fun _ hnone => (by cases hnone), fun hun error herror => ?_⟩
    cases herror
    exact Comm.chError_ne_zero (hkept.recorded hun hfree)
  · -- the thread threw, or nothing was unreported
    refine ⟨fun hun => ?_, fun _ _ hnone => (by cases hnone)⟩
    obtain ⟨hun, hzero⟩ := Bool.and_eq_true_iff.mp hun
    exact absurd (beq_iff_eq.mp hzero) (hkept.read hun error hfound)

theorem kept_run {id : CommId} {as : List (Act B)} {s : ErrorSystem B}
    (hg : Machine.Guarded (ErrorSystem.step conf) KeepsWriteError (ErrorSystem.init id) as)
    (h : Machine.run (ErrorSystem.step conf) (ErrorSystem.init id) as = some s) : s.Inv ∧ s.Kept :=
  Machine.run_guarded_invariant (fun s => s.Inv ∧ s.Kept)
    (fun _ _ _ hi hok hs => ⟨hi.1.step hs, hi.2.step hi.1 hok hs⟩) as _ _
    ⟨.init id, fun h => Bool.noConfusion h, fun h => Bool.noConfusion h⟩ hg h

/-- **A failed write always ends the connection** when every step keeps the write error: until a
    `disconnected_error` is thrown the error is recorded, or was read by the thread that is about to throw; a
    thread that comes to the errors stage reads an error, and a thread that has read one throws. And a step that
    does not keep the write error loses it, at once or when the thread goes on. -/
theorem write_error_kept (conf : Config B) (id : CommId) (as : List (Act B)) (s : ErrorSystem B)
    (hg : Machine.Guarded (ErrorSystem.step conf) KeepsWriteError (ErrorSystem.init id) as)
    (h : Machine.run (ErrorSystem.step conf) (ErrorSystem.init id) as = some s) :
    (s.unreported = true →
        (s.found = none → s.system.comm.writeError ≠ 0)
          ∧ (∀ s', ErrorSystem.step conf s .readErrors = some s' → ∃ error, error ≠ 0 ∧ s'.found = some error)
          ∧ (∀ error, s.found = some error →
              Comm.chErrorNext (B := B) error = .raised (.disconnectedError error "Channel error")))
      ∧ ∀ a s', ErrorSystem.step conf s a = some s' → ¬ s.KeepsWriteError a →
          s'.Lost ∨ ∃ t, ErrorSystem.step conf s' .clearErrors = some t ∧ t.Lost := by
  obtain ⟨hinv, hkept⟩ := kept_run hg h
  refine ⟨fun hun => ⟨hkept.recorded hun, fun s' hs' => ?_, fun error hfound => ?_⟩, fun a s' hs' hbad => ?_⟩
  -- the step that reads the errors is the first half, and no handshake error comes before
  · rcases step_cases hinv hs' with ⟨e, c, ha, -⟩ | ⟨ha, -⟩ | ⟨-, -, hhs, -⟩ | ⟨-, hfree, -, rfl⟩ | ⟨_, ha, -⟩
    · cases ha
    · rcases ha with ha | ⟨_, ha⟩ <;> cases ha
    · exact absurd (hinv.handshake.connected (.inr (hinv.session hun))) hhs
    · exact ⟨_, Comm.chError_ne_zero (hkept.recorded hun hfree), rfl⟩
    · cases ha
  · rw [Comm.chErrorNext, if_pos (hkept.read hun error hfound)]
  -- only the completions of writes are guarded, so only they can violate
  · rcases step_cases hinv hs' with ⟨e, c, rfl, hc, rfl⟩ | ⟨rfl | ⟨_, rfl⟩, -⟩ | ⟨rfl, -⟩ | ⟨rfl, -⟩ | ⟨_, rfl, -⟩
    · have herr : c.writeError = (s.system.comm.ioState.after e).writeError :=
        congrArg IoState.writeError (Comm.envStep_ioState hc)
      cases e with
      | writeDone i =>
          -- a completed write overwrites the error of the one before
          obtain ⟨hfree, hne⟩ := Classical.not_imp.mp hbad
          refine .inl ⟨?_, hfree, herr⟩
          rw [hinv.failed hne]
          rfl
      | writeFail i error =>
          -- a failure behind the read of an error code of zero is cleared with it
          have hfound : s.found = some 0 := not_not.mp hbad
          refine .inr ⟨_, step_clearErrors hfound, ?_, rfl, rfl⟩
          exact Bool.and_eq_true_iff.mpr ⟨Bool.or_true _, rfl⟩
      | send | connectSuccess | handshake | readAppend | readUpdated | readFail | writeSome | disconnect =>
          exact absurd trivial hbad
    all_goals exact absurd trivial hbad

/-- Two messages are sent and their writes started; the first one fails. -/
def firstFailed : List (Act .lp64) :=
  [.env .connectSuccess, .enter, .stage .plain, .env (.send ⟨[0x61], 0, 0, 0, []⟩),
      .env (.send ⟨[0x62], 0, 0, 0, []⟩)]
    ++ List.replicate 6 (.stage .plain) ++ [.env (.writeFail 0 5)]

/-- The error is there for the thread to find. -/
theorem write_error_kept_firstFailed : ∃ s, Machine.run (step Config.plain) (init 1) firstFailed = some s
    ∧ s.unreported = true ∧ (s.found = none → s.system.comm.writeError ≠ 0) :=
  ⟨_, rfl, rfl, ((write_error_kept .plain 1 firstFailed _ (by decide +kernel) rfl).1 rfl).1⟩

/-- **A write that succeeds wipes out the error** of the one that failed, and the thread passes the errors
    stage. -/
theorem write_error_overwritten : ∃ s, Machine.run (step Config.plain) (init 1)
      (firstFailed ++ [.env (.writeSome 1 5), .env (.writeDone 1), .stage .plain, .stage .plain, .readErrors,
        .clearErrors]) = some s
    ∧ s.Lost ∧ s.system.proc = some .afterProcessed :=
  ⟨_, rfl, ⟨rfl, rfl, rfl⟩, rfl⟩

end ErrorSystem

end Unicomm
