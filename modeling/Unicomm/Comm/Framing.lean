import Unicomm.Lib.Projection
import Unicomm.Facade.Canonical
import Unicomm.Facade.RoundTrip
import Unicomm.Comm.Reading

/-!
# `Comm.Framing` — the frames a communicator takes out of its stream

With one `run()` thread the read handler and `mt_process` never overlap. However the stream is cut into reads,
and wherever a quantum runs out or something throws, the frames taken out of `_in_buffer` are then the first
frames of the stream, each once and in order (`taken_frames`).

`perform_decode` erases a frame **before** anything can throw, so every step satisfies the same equation: what
was in the buffer and what it appends are the frame it takes and what it leaves. The run is the sum of these
equations.

It goes on only as long as the process lives. A frame that ends in an unpaired escape symbol is not rejected:
`binary_decode` writes and reads past its end. A `Process` is a communicator whose process this takes down.
-/

namespace Unicomm

variable {B : Build}

/-! ## Frames -/

/-- The raw message `perform_decode` takes out of a buffer, if it finds one. -/
def MessageDecoder.rawMessage {M : Type} (d : MessageDecoder M) (buffer : Str) : Option Str :=
  if d.Finds buffer then some (d.foundIn buffer) else none

/-- A complete frame: it ends in the end marker, which is nowhere else in it. -/
def IsFrame (raw : Str) : Prop := ∃ frame : Str, raw = frame ++ [binMessageEnd] ∧ binMessageEnd ∉ frame

/-- The binary decoder finds a frame exactly where there is an end marker. -/
theorem finds_iff (factory : Str → Except Exc (BinMessage B)) (buffer : Str) :
    (binMessageDecoder factory).Finds buffer ↔ binMessageEnd ∈ buffer := by
  change (findRawMessage buffer).first ≠ (findRawMessage buffer).last ↔ _
  constructor
  · intro hfinds
    by_contra hopen
    rw [findRawMessage_open hopen] at hfinds
    exact hfinds rfl
  · intro hmem
    obtain ⟨frame, rest, rfl, hframe⟩ := List.eq_append_cons_of_mem hmem
    rw [findRawMessage_frame hframe]
    simp

/-- **What the binary decoder takes**: a frame, which it removes from the front of the buffer, or nothing. -/
theorem rawMessage_spec (factory : Str → Except Exc (BinMessage B)) (buffer : Str) :
    buffer = ((binMessageDecoder factory).rawMessage buffer).toList.flatten
        ++ ((binMessageDecoder factory).performDecode buffer).2
      ∧ ∀ raw ∈ (binMessageDecoder factory).rawMessage buffer, IsFrame raw := by
  by_cases hmem : binMessageEnd ∈ buffer
  · obtain ⟨frame, rest, rfl, hframe⟩ := List.eq_append_cons_of_mem hmem
    have hraw : (binMessageDecoder factory).rawMessage (frame ++ binMessageEnd :: rest)
        = some (frame ++ [binMessageEnd]) := by
      have hsplit : frame ++ binMessageEnd :: rest = (frame ++ [binMessageEnd]) ++ rest := by simp
      rw [MessageDecoder.rawMessage, if_pos ((finds_iff factory _).mpr hmem), MessageDecoder.foundIn]
      simp only [binMessageDecoder, findRawMessage_frame hframe, List.drop_zero]
      rw [hsplit, List.take_left]
    rw [performDecode_frame factory hframe, hraw]
    refine ⟨by simp, fun raw h => ?_⟩
    cases h
    exact ⟨frame, rfl, hframe⟩
  · have hraw : (binMessageDecoder factory).rawMessage buffer = none :=
      if_neg (fun hfinds => hmem ((finds_iff factory buffer).mp hfinds))
    rw [performDecode_open factory hmem, hraw]
    exact ⟨rfl, fun raw h => by cases h⟩

/-- Frames put one behind the other are the first frames of any stream that goes on from there. -/
theorem frames_eq_take {frames : List Str} (h : ∀ raw ∈ frames, IsFrame raw) (rest : Str) :
    frames = ((Delimited.split binMessageEnd (frames.flatten ++ rest)).1.take frames.length).map
      (· ++ [binMessageEnd]) := by
  induction frames with
  | nil => rfl
  | cons raw frames ih =>
      obtain ⟨frame, hraw, hframe⟩ := h raw List.mem_cons_self
      have ih := ih (fun r hr => h r (List.mem_cons_of_mem raw hr))
      have hflat : (raw :: frames).flatten ++ rest = frame ++ binMessageEnd :: (frames.flatten ++ rest) := by
        simp [hraw]
      rw [hflat, Delimited.split_frame hframe, List.length_cons, List.take_succ_cons, List.map_cons, ← ih, hraw]

namespace System

variable {conf : Config B}

/-! ## What goes in and what comes out -/

/-- What a step appends to the incoming buffer. -/
def appended : Act B → Str
  | .env (.readAppend bytes) => bytes
  | _                        => []

/-- The bytes the reads of a run delivered. -/
def received (as : List (Act B)) : Str := as.flatMap appended

/-- The frame a step takes out of the incoming buffer. -/
def taken (conf : Config B) (s : System B) : Act B → List Str
  | .stage ch =>
      if s.proc = some .decode ∧ (s.comm.inBufferUpdated && !ch.elapsed) = true ∧ s.comm.userSession = true then
        (conf.messageDecoder.rawMessage s.comm.inBuffer).toList
      else []
  | _ => []

/-- The frames a run takes out, in order. -/
def takenFrames (conf : Config B) (id : CommId) (as : List (Act B)) : List Str :=
  Machine.outputs (System.step conf) (taken conf) (System.init id) as

/-- **One `run()` thread**: the read handler runs outside `mt_process`, and nothing of `mt_process` inside it.
    -/
def OneThread (s : System B) : Act B → Prop
  | .env (.readAppend _) | .env .readUpdated => s.proc = none
  | .enter | .stage _                        => s.comm.inReadHandler = false
  | _                                        => True

instance (s : System B) : ∀ a : Act B, Decidable (s.OneThread a)
  | .env (.readAppend _) | .env .readUpdated => inferInstanceAs (Decidable (s.proc = none))
  | .enter | .stage _                        => inferInstanceAs (Decidable (s.comm.inReadHandler = false))
  | .env (.send _) | .env .connectSuccess | .env (.handshake _) | .env (.readFail _) | .env (.writeSome _ _)
  | .env (.writeDone _) | .env (.writeFail _ _) | .env .disconnect => isTrue trivial

/-- One thread keeps the flag. -/
theorem OneThread.keepsFlag {s : System B} {a : Act B} (h : s.OneThread a) : KeepsFlag conf s a := by
  unfold KeepsFlag
  split
  · intro hlate
    rw [OneThread] at h
    rw [h] at hlate
    cases hlate.1
  · trivial

/-- **The equation of a step**: what was in the buffer and what is appended are the frame that is taken and what
    is left, however the step ends. -/
theorem inBuffer_step {factory : Str → Except Exc (BinMessage B)}
    (hconf : conf.messageDecoder = binMessageDecoder factory) {s s' : System B} {a : Act B}
    (h : System.step conf s a = some s') :
    s.comm.inBuffer ++ appended a = (taken conf s a).flatten ++ s'.comm.inBuffer
      ∧ ∀ raw ∈ taken conf s a, IsFrame raw := by
  cases a with
  | env e =>
      obtain ⟨c, hc, rfl⟩ := Option.map_eq_some_iff.mp h
      have hbuf := congrArg IoState.inBuffer (Comm.envStep_ioState hc)
      refine ⟨?_, fun raw hraw => absurd hraw List.not_mem_nil⟩
      -- of the environment only the read handler appends
      cases e with
      | readAppend bytes => exact hbuf.symm
      | send m | connectSuccess | handshake error | readUpdated | readFail error | writeSome i n | writeDone i
      | writeFail i error | disconnect =>
          exact (List.append_nil _).trans hbuf.symm
  | enter =>
      rw [System.step] at h
      split at h <;> cases h
      exact ⟨List.append_nil _, fun raw hraw => absurd hraw List.not_mem_nil⟩
  | stage ch =>
      obtain ⟨st, hst, rfl⟩ := step_stage h
      simp only [appended, List.append_nil, Comm.runStage_inBuffer, taken, hst, Option.some.injEq]
      -- of the stages only decoding takes, when it has the time and a session
      by_cases hopen : st = .decode ∧ (s.comm.inBufferUpdated && !ch.elapsed) = true
      · rw [if_pos hopen]
        by_cases hsess : s.comm.userSession = true
        · rw [if_pos ⟨hopen.1, hopen.2, hsess⟩, Comm.mtPerformDecode, if_pos hsess, hconf]
          exact ⟨(rawMessage_spec factory _).1, fun raw hraw =>
            (rawMessage_spec factory _).2 raw (Option.mem_toList.mp hraw)⟩
        · rw [if_neg (fun hall => hsess hall.2.2), Comm.mtPerformDecode, if_neg hsess]
          exact ⟨rfl, fun raw hraw => absurd hraw List.not_mem_nil⟩
      · rw [if_neg hopen, if_neg (fun hall => hopen ⟨hall.1, hall.2.1⟩)]
        exact ⟨rfl, fun raw hraw => absurd hraw List.not_mem_nil⟩

/-! ## One read at a time -/

/-- The reads that are outstanding or bound to come: a handler starts the next one, the connection the first. -/
def readSlots (r : IoState) : Nat :=
  r.reads + r.inReadHandler.toNat + r.justConnected.toNat + r.connectPending.toNat

/-- The environment brings no read. -/
theorem readSlots_envStep {c c' : Comm B} {e : EnvAct B} (h : c.envStep conf e = some c') :
    readSlots c'.ioState ≤ readSlots c.ioState := by
  have hread := Comm.envStep_ioState h
  cases e with
  | connectSuccess =>
      rw [Comm.envStep] at h
      split at h <;> cases h
      next hpending => simp [readSlots, Comm.ioState, hpending]
  | handshake error =>
      rw [Comm.envStep] at h
      split at h <;> cases h
      next hpending =>
        have hor : (c.justConnected || error == 0).toNat ≤ c.justConnected.toNat + 1 := by
          cases c.justConnected <;> cases error == 0 <;> decide
        simp only [readSlots, Comm.ioState, hpending, Bool.toNat_false, Bool.toNat_true]
        omega
  | readAppend bytes =>
      rw [Comm.envStep] at h
      split at h <;> cases h
      next hidle =>
        simp only [readSlots, Comm.ioState, hidle.2, Bool.toNat_false, Bool.toNat_true]
        omega
  | readUpdated =>
      rw [Comm.envStep] at h
      split at h <;> cases h
      next hin =>
        simp only [readSlots, Comm.ioState, Comm.mtStartRead, hin, Bool.toNat_false, Bool.toNat_true]
        omega
  | readFail error =>
      rw [Comm.envStep] at h
      split at h <;> cases h
      next hidle =>
        simp only [readSlots, Comm.ioState]
        omega
  | send m | writeSome i n | writeDone i | writeFail i error | disconnect =>
      exact (congrArg readSlots hread).le

/-- A stage brings none: connecting uses up the announcement. -/
theorem readSlots_runStage {ch : Choice B} (st : Comm.Stage B) (c : Comm B) :
    readSlots (Comm.runStage conf ch st c).1.ioState ≤ readSlots c.ioState := by
  rw [Comm.runStage_ioState]
  cases st with
  | connect =>
      simp only
      split
      · next hjc =>
          simp only [readSlots, Comm.ioState, hjc, Bool.toNat_false, Bool.toNat_true]
          omega
      · exact Nat.le_refl _
  | decode | errors =>
      simp only
      split <;> exact Nat.le_refl _
  | sent | arrived | clearUpdated | write | popping m | timeouts | afterProcessed => exact Nat.le_refl _

theorem readSlots_step {s s' : System B} {a : Act B} (h : System.step conf s a = some s') :
    readSlots s'.comm.ioState ≤ readSlots s.comm.ioState := by
  cases a with
  | env e =>
      obtain ⟨c, hc, rfl⟩ := Option.map_eq_some_iff.mp h
      exact readSlots_envStep hc
  | enter =>
      rw [System.step] at h
      split at h <;> cases h
      exact Nat.le_refl _
  | stage ch =>
      obtain ⟨st, _, rfl⟩ := step_stage h
      exact readSlots_runStage st s.comm

/-- **At most one read is outstanding**, in every reachable state. -/
theorem reads_le_one {id : CommId} {as : List (Act B)} {s : System B}
    (h : Machine.run (System.step conf) (System.init id) as = some s) : s.comm.socket.reads ≤ 1 := by
  have hslots : readSlots s.comm.ioState ≤ 1 :=
    Machine.run_invariant (fun s : System B => readSlots s.comm.ioState ≤ 1)
      (fun _ _ _ hi hs => (readSlots_step hs).trans hi) as _ _ (Nat.le_refl _) h
  have hreads : s.comm.socket.reads ≤ readSlots s.comm.ioState := by
    rw [readSlots, Nat.add_assoc, Nat.add_assoc]
    exact Nat.le_add_right _ _
  exact hreads.trans hslots

/-! ## The stream -/

/-- The stream of a run: what was received are the frames taken and what is left. -/
theorem received_eq {factory : Str → Except Exc (BinMessage B)}
    (hconf : conf.messageDecoder = binMessageDecoder factory) {id : CommId} {as : List (Act B)} {s : System B}
    (h : Machine.run (System.step conf) (System.init id) as = some s) :
    received as = (takenFrames conf id as).flatten ++ s.comm.inBuffer
      ∧ ∀ raw ∈ takenFrames conf id as, IsFrame raw :=
  Machine.run_outputs_of_step (taken conf)
    (fun past frames (s : System B) => received past = frames.flatten ++ s.comm.inBuffer ∧ ∀ raw ∈ frames, IsFrame raw)
    (fun past frames s a s' hi hs => by
      obtain ⟨hone, hframe⟩ := inBuffer_step hconf hs
      constructor
      · have hlast : received (past ++ [a]) = received past ++ appended a := by simp [received]
        rw [hlast, hi.1, List.append_assoc, hone, List.flatten_append, List.append_assoc]
      · intro raw hraw
        exact (List.mem_append.mp hraw).elim (hi.2 raw) (hframe raw))
    ⟨rfl, fun raw hraw => absurd hraw List.not_mem_nil⟩ h

end System

/-! ## The process -/

/-- A communicator, and whether its process has died. -/
structure Process (B : Build) where
  system  : System B
  crashed : Bool

namespace Process

variable {conf : Config B}

def init (id : CommId) : Process B := ⟨System.init id, false⟩

/-- Decoding a frame accesses memory outside it. -/
def leavesFrame (conf : Config B) (raw : Str) : Bool :=
  match conf.messageDecoder.decodeRawMessage raw with
  | .error .undefinedBehavior => true
  | _                         => false

/-- One step of a process that lives. It dies of the frame it takes. -/
def step (conf : Config B) (p : Process B) (a : System.Act B) : Option (Process B) :=
  if p.crashed then none
  else (System.step conf p.system a).map (fun s => ⟨s, (System.taken conf p.system a).any (leavesFrame conf)⟩)

/-- One `run()` thread. -/
def OneThread (p : Process B) (a : System.Act B) : Prop := p.system.OneThread a

instance (p : Process B) (a : System.Act B) : Decidable (p.OneThread a) :=
  inferInstanceAs (Decidable (p.system.OneThread a))

/-- The frame a step takes, if it takes one, does not end in an unpaired escape symbol. -/
def TakesPaired (conf : Config B) (p : Process B) (a : System.Act B) : Prop :=
  ∀ raw ∈ System.taken conf p.system a, ¬ binStuffing.EndsUnpaired raw.dropLast

instance (p : Process B) (a : System.Act B) : Decidable (TakesPaired conf p a) :=
  inferInstanceAs (Decidable (∀ raw ∈ System.taken conf p.system a, ¬ binStuffing.EndsUnpaired raw.dropLast))

/-- A step of the process is one of the communicator. -/
theorem step_system {p p' : Process B} {a : System.Act B} (h : step conf p a = some p') :
    System.step conf p.system a = some p'.system
      ∧ p'.crashed = (System.taken conf p.system a).any (leavesFrame conf) := by
  rw [step] at h
  split at h
  · cases h
  · obtain ⟨s, hs, rfl⟩ := Option.map_eq_some_iff.mp h
    exact ⟨hs, rfl⟩

/-- So is a run. -/
theorem run_system {as : List (System.Act B)} {p q : Process B} (h : Machine.run (step conf) p as = some q) :
    Machine.run (System.step conf) p.system as = some q.system := by
  have hview := Machine.run_filterMap Process.system some
    (fun _ _ _ hs => Machine.run_cons_eq_some.mpr ⟨_, (step_system hs).1, rfl⟩) h
  rwa [List.filterMap_some] at hview

/-- A dead process takes no step. -/
theorem step_of_crashed {p : Process B} (h : p.crashed = true) (a : System.Act B) : step conf p a = none := if_pos h

/-- **Decoding leaves exactly the frames that end in an unpaired escape symbol.** -/
theorem leavesFrame_iff {factory : Str → Except Exc (BinMessage B)}
    (hconf : conf.messageDecoder = binMessageDecoder factory) {raw : Str} (hraw : IsFrame raw) :
    leavesFrame conf raw = true ↔ binStuffing.EndsUnpaired raw.dropLast := by
  obtain ⟨frame, rfl, -⟩ := hraw
  rw [List.dropLast_concat, leavesFrame, hconf]
  by_cases h : binStuffing.EndsUnpaired frame
  · simp [binMessageDecoder, decodeRawMessage_unpaired h, h]
  · obtain ⟨t, -, ht⟩ := decodeRawMessage_paired h
    simp [binMessageDecoder, ht, h]

/-- **A step kills the process exactly if the frame it takes ends in an unpaired escape symbol.** -/
theorem crashed_step {factory : Str → Except Exc (BinMessage B)}
    (hconf : conf.messageDecoder = binMessageDecoder factory) {p p' : Process B} {a : System.Act B}
    (h : step conf p a = some p') : p'.crashed = false ↔ TakesPaired conf p a := by
  obtain ⟨hs, hcrashed⟩ := step_system h
  rw [hcrashed, List.any_eq_false]
  refine forall₂_congr (fun raw hraw => ?_)
  rw [leavesFrame_iff hconf ((System.inBuffer_step hconf hs).2 raw hraw)]

/-- **Framing does not depend on how the stream was cut, and survives bad frames** as long as no frame taken ends in
    an unpaired escape symbol. With one `run()` thread, whatever is thrown and wherever a quantum runs out: the
    process lives; the frames taken are the first frames of what was received; every step takes exactly the bytes of
    its frame, however it ends; at most one read is outstanding; and outside the read handler, the buffer holds no
    complete frame that the flag does not announce. A step that takes a frame ending in an unpaired escape symbol
    kills the process, and no later frame is taken. -/
theorem taken_frames {factory : Str → Except Exc (BinMessage B)}
    (hconf : conf.messageDecoder = binMessageDecoder factory) {id : CommId} {as : List (System.Act B)} {p : Process B}
    (hg : Machine.Guarded (step conf) (fun p a => p.OneThread a ∧ TakesPaired conf p a) (init id) as)
    (h : Machine.run (step conf) (init id) as = some p) :
    p.crashed = false
      ∧ System.received as = (System.takenFrames conf id as).flatten ++ p.system.comm.inBuffer
      ∧ System.takenFrames conf id as
          = ((Delimited.split binMessageEnd (System.received as)).1.take (System.takenFrames conf id as).length).map
              (· ++ [binMessageEnd])
      ∧ (∀ a p', step conf p a = some p' →
          p.system.comm.inBuffer ++ System.appended a
            = (System.taken conf p.system a).flatten ++ p'.system.comm.inBuffer)
      ∧ p.system.comm.socket.reads ≤ 1
      ∧ (p.system.comm.inReadHandler = false → p.system.comm.inBufferUpdated = false →
          binMessageEnd ∉ p.system.comm.inBuffer)
      ∧ ∀ a p', step conf p a = some p' → ¬ TakesPaired conf p a →
          p'.crashed = true ∧ ∀ b, step conf p' b = none := by
  have hrun := run_system h
  have hstream := System.received_eq hconf hrun
  -- only a frame with an unpaired escape symbol kills, and the guard takes none
  have halive : p.crashed = false := Machine.run_guarded_invariant (fun p : Process B => p.crashed = false)
    (fun _ _ _ _ hok hs => (crashed_step hconf hs).mpr hok.2) as _ _ rfl hg h
  have hempty : ¬ conf.messageDecoder.Finds [] := by
    rw [hconf, finds_iff]
    exact List.not_mem_nil
  have hflag : System.FlagInv conf p.system := Machine.run_guarded_invariant
    (fun p : Process B => System.FlagInv conf p.system)
    (fun _ _ _ hi hok hs => hi.step hok.1.keepsFlag (step_system hs).1) as _ _ (System.FlagInv.init hempty id) hg h
  refine ⟨halive, hstream.1, ?_, fun a p' hs => (System.inBuffer_step hconf (step_system hs).1).1,
    System.reads_le_one hrun, fun hin hno hmem => ?_, fun a p' hs hbad => ?_⟩
  · rw [hstream.1]
    exact frames_eq_take hstream.2 _
  · have hframe : System.HoldsFrame conf p.system := by
      rw [System.HoldsFrame, hconf, finds_iff]
      exact hmem
    -- a frame in the buffer is announced or its announcement is outstanding
    rcases hflag.announced hframe with hflag | hreading
    · rw [hno] at hflag; cases hflag
    · rw [hin] at hreading; cases hreading
  · have hdead : p'.crashed = true := by
      rw [← Bool.not_eq_false, crashed_step hconf hs]
      exact hbad
    exact ⟨hdead, step_of_crashed hdead⟩

/-- A bad frame and a good one arrive in three pieces; decoding the first throws, decoding the second does not.
    -/
def badThenGood : List (System.Act .lp64) :=
  [.env .connectSuccess, .enter, .stage .plain, .stage .plain, .stage .plain, .stage .plain, .stage .plain,
    .stage .plain, .stage .plain,
    .env (.readAppend [1, 255, 0]), .env .readUpdated, .env (.readAppend [3, 0, 255, 7]), .env .readUpdated,
    .enter, .stage .plain, .stage .plain, .stage .plain, .stage .plain,
    .enter, .stage .plain, .stage .plain, .stage .plain, .stage .plain, .stage .plain, .stage .plain,
    .stage .plain]

/-- Both frames are taken, and the tail stays. -/
theorem taken_frames_badThenGood :
    ∃ p, Machine.run (step Config.plain) (init 0) badThenGood = some p
      ∧ System.takenFrames Config.plain 0 badThenGood = [[1, 255], [0, 3, 0, 255]]
      ∧ System.received badThenGood = (System.takenFrames Config.plain 0 badThenGood).flatten
          ++ p.system.comm.inBuffer :=
  ⟨_, rfl, by decide +kernel, (taken_frames rfl (by decide +kernel)
    (rfl : Machine.run (step Config.plain) (init 0) badThenGood = some _)).2.1⟩

/-- Two frames arrive in one piece; the first ends in an unpaired escape symbol. -/
def escapeThenGood : List (System.Act .lp64) :=
  [.env .connectSuccess, .enter, .stage .plain, .stage .plain, .stage .plain, .stage .plain, .stage .plain,
    .stage .plain, .stage .plain,
    .env (.readAppend [0xfe, 0xff, 0, 3, 0, 0xff]), .env .readUpdated,
    .enter, .stage .plain, .stage .plain, .stage .plain, .stage .plain]

/-- **The second frame is never taken.** There is one thread; the process dies of the first frame, while the second is
    in the buffer and announced. -/
theorem escape_kills :
    ∃ p, Machine.run (step Config.plain) (init 0) escapeThenGood = some p
      ∧ Machine.Guarded (step Config.plain) OneThread (init 0) escapeThenGood
      ∧ System.received escapeThenGood = [0xfe, 0xff, 0, 3, 0, 0xff]
      ∧ System.takenFrames Config.plain 0 escapeThenGood = [[0xfe, 0xff]]
      ∧ p.system.comm.inBuffer = [0, 3, 0, 0xff] ∧ p.system.comm.inBufferUpdated = true
      ∧ p.crashed = true ∧ ∀ a, step Config.plain p a = none :=
  ⟨_, rfl, by decide +kernel, rfl, by decide +kernel, by decide +kernel, by decide +kernel, by decide +kernel,
    step_of_crashed rfl⟩

end Process

end Unicomm
