import Unicomm.Comm.SentReports

/-!
# `Comm.InternalMid` — the internal identifier wraps

`_internal_mid` has the width of `unsigned long`. While one write is outstanding, as many others as there are
identifiers bring the counter back to the identifier of the first (`Waiting.run`). `out_buffers_insert` then finds the
key taken: the next message goes without a buffer, its write sends the bytes of the first one, and when it completes
the first one is reported (`sent_report_lost`).
-/

namespace Unicomm

open Std (ExtTreeMap)

variable {B : Build} {conf : Config B}

/-- What `prepare_to_write` makes of a message that it encodes as `out`. -/
def BinMessage.prepeared (m : BinMessage B) (out : Str) : PrepearedMessage B := ⟨m.id, m.name, m.priority, out⟩

namespace Comm

variable (c : Comm B) (p : PrepearedMessage B) (i : Nat) (w : AsyncWrite B)

/-- A message was pushed, and its write started. -/
def started : Comm B := (c.pushPrepearedMessage p).popAndWrite p

@[simp] theorem started_internalMid : (c.started p).internalMid = c.internalMid + 1 := rfl

@[simp] theorem started_outBuffers : (c.started p).outBuffers = c.outBuffers.insertIfNew c.internalMid p := rfl

@[simp] theorem started_handed : (c.started p).handed = c.handed ++ [p] :=
  (handed_log _ _).trans (congrArg (· ++ [p]) (pushPrepearedMessage_handed p c))

@[simp] theorem started_reports : (c.started p).reports = c.reports := by
  have hpush : (c.pushPrepearedMessage p).reports = c.reports := reports_event (e := .pushed p) rfl rfl rfl
  have hwrite : ((c.pushPrepearedMessage p).popAndWrite p).reports = (c.pushPrepearedMessage p).reports :=
    reports_event (e := .handed p) rfl rfl rfl
  exact hwrite.trans hpush

/-- Nothing else is in the queue. -/
theorem started_prepearedMQueue (h : c.prepearedMQueue = []) : (c.started p).prepearedMQueue = [] := by
  rw [started, popAndWrite_prepearedMQueue]
  show (PriorityQueue.push PrepearedMessage.priority p c.prepearedMQueue).tail = []
  rw [h]
  rfl

/-- Write `i` has transferred all that it had left. -/
def carried : Comm B :=
  let c' := c.setWrite i { w with rest := [] }
  { c' with socket := { c'.socket with stream := c'.socket.stream ++ w.rest } }

/-- Then its completion handler has run. -/
def completed : Comm B :=
  ((c.carried i w).setWrite i { w with rest := [], pending := false }).mtAsioWriteHandler 0 w.intMid

@[simp] theorem completed_userSession : (c.completed i w).userSession = c.userSession :=
  (mtAsioWriteHandler_frame 0 w.intMid _).1

@[simp] theorem completed_prepearedMQueue : (c.completed i w).prepearedMQueue = c.prepearedMQueue :=
  (mtAsioWriteHandler_frame 0 w.intMid _).2.1

@[simp] theorem completed_internalMid : (c.completed i w).internalMid = c.internalMid :=
  mtAsioWriteHandler_internalMid 0 w.intMid _

@[simp] theorem completed_outBuffers : (c.completed i w).outBuffers = c.outBuffers.erase w.intMid :=
  mtAsioWriteHandler_outBuffers 0 w.intMid _

@[simp] theorem completed_handed : (c.completed i w).handed = c.handed :=
  mtAsioWriteHandler_handed 0 w.intMid _

@[simp] theorem length_writes_completed : (c.completed i w).socket.writes.length = c.socket.writes.length := by
  rw [completed, mtAsioWriteHandler_socket]
  simp [carried, setWrite]

theorem completed_reports :
    (c.completed i w).reports = c.reports ++ (c.outBuffers[w.intMid]?).toList.map PrepearedMessage.id :=
  mtAsioWriteHandler_reports 0 w.intMid _

end Comm

namespace System

/-- Identifiers and priorities are the caller's. -/
structure TakesAsIs (conf : Config B) : Prop where
  id       : conf.useUniqueMessageId = false
  priority : conf.useDefaultMessagePriority = false

/-! ## One write -/

/-- The thread that stands before the queue starts the write of the message that is sent. -/
theorem start_write (hconf : TakesAsIs conf) {m : BinMessage B} {out : Str}
    (henc : conf.messageEncoder.performEncode m = .ok out) {s : System B} (hproc : s.proc = some .write)
    (hsess : s.comm.userSession = true) (hqueue : s.comm.prepearedMQueue = []) :
    Machine.run (System.step conf) s [.env (.send m), .stage .plain, .stage .plain]
      = some ⟨s.comm.started (m.prepeared out), some .write⟩ := by
  have hdraw : Comm.drawMid conf m s.comm = (m.id, s.comm) := by
    rw [Comm.drawMid, hconf.id]
    rfl
  have hstamped : Comm.stamped conf m s.comm = m := by
    rw [Comm.stamped, hdraw, Comm.sendPriority, hconf.priority]
    rfl
  have hsend : s.comm.envStep conf (.send m) = some (s.comm.pushPrepearedMessage (m.prepeared out)) := by
    rw [Comm.envStep, Comm.prepareToWrite]
    simp only [hdraw, hstamped, hsess, henc, if_true]
    rfl
  have hfront : (s.comm.pushPrepearedMessage (m.prepeared out)).frontCopy = some (m.prepeared out) := by
    rw [Comm.frontCopy, Comm.pushPrepearedMessage]
    simp only [hqueue, Comm.log]
    rfl
  simp only [Machine.run, System.step, hsend, Option.map_some, Option.bind_some, hproc, Comm.runStage, hfront,
    afterStage, Choice.plain, Bool.false_eq_true, if_false, Comm.started]

/-- **An outstanding write is carried out, and completes.** -/
theorem complete_write {s : System B} {i : Nat} {w : AsyncWrite B} (hw : s.comm.pendingWrite i = some w)
    (hrest : w.rest ≠ []) :
    Machine.run (System.step conf) s [.env (.writeSome i w.rest.length), .env (.writeDone i)]
      = some ⟨s.comm.completed i w, s.proc⟩ := by
  obtain ⟨hget, hpending⟩ := Option.filter_eq_some_iff.mp hw
  have hi := (List.getElem?_eq_some_iff.mp hget).1
  have hsome : s.comm.envStep conf (.writeSome i w.rest.length) = some (s.comm.carried i w) := by
    rw [Comm.envStep, hw]
    simp only
    rw [if_pos ⟨List.length_pos_iff.mpr hrest, Nat.le_refl _⟩, List.take_length, List.drop_length]
    rfl
  have hpend : (s.comm.carried i w).pendingWrite i = some { w with rest := [] } := by
    have hset : (s.comm.socket.writes.set i { w with rest := [] })[i]? = some { w with rest := [] } :=
      List.getElem?_set_self hi
    exact (congrArg (Option.filter (·.pending)) hset).trans (Option.filter_some_pos hpending)
  have hdone : (s.comm.carried i w).envStep conf (.writeDone i) = some (s.comm.completed i w) := by
    rw [Comm.envStep, hpend]
    rfl
  simp only [Machine.run, System.step, hsome, hdone, Option.map_some, Option.bind_some]

/-! ## As many as there are identifiers -/

/-- `k` writes have been started and have completed since the one of `first`, which is outstanding. -/
structure Waiting (first : PrepearedMessage B) (k : Nat) (s : System B) : Prop where
  proc     : s.proc = some .write
  session  : s.comm.userSession = true
  queue    : s.comm.prepearedMQueue = []
  next     : s.comm.internalMid = Comm.intMidAt B (k + 1)
  out      : ∀ key : MessageId B, s.comm.outBuffers[key]? = if key = 0 then some first else none
  handed   : s.comm.handed.length = k + 1
  writes   : s.comm.socket.writes.length = k + 1
  reported : ∀ mid ∈ s.comm.reports, mid = first.id

/-- The first write of a communicator is started. -/
theorem Waiting.start {c : Comm B} (hsess : c.userSession = true) (hqueue : c.prepearedMQueue = [])
    (hnext : c.internalMid = 0) (hout : c.outBuffers = ∅) (hhanded : c.handed = []) (hwrites : c.socket.writes = [])
    (hreports : c.reports = []) (p : PrepearedMessage B) : Waiting p 0 ⟨c.started p, some .write⟩ where
  proc     := rfl
  session  := hsess
  queue    := Comm.started_prepearedMQueue c p hqueue
  next     := by
    rw [Comm.started_internalMid, hnext]
    exact BitVec.ofNat_add_ofNat 0 1
  out      := fun key => by
    have hnew : (0 : MessageId B) ∉ c.outBuffers := by
      rw [hout]
      exact Std.ExtTreeMap.not_mem_empty
    rw [Comm.started_outBuffers, hnext, Table.getElem?_insertIfNew hnew, hout, Std.ExtTreeMap.getElem?_empty]
    simp only [eq_comm]
  handed   := by rw [Comm.started_handed, hhanded]; rfl
  writes   := by
    change (c.socket.writes ++ [_]).length = 1
    rw [hwrites]
    rfl
  reported := fun mid hmid => by
    rw [Comm.started_reports, hreports] at hmid
    exact absurd hmid List.not_mem_nil

/-- The steps of one more write. -/
def oneWrite (m : BinMessage B) (out : Str) (k : Nat) : List (Act B) :=
  [.env (.send m), .stage .plain, .stage .plain] ++ [.env (.writeSome (k + 1) out.length), .env (.writeDone (k + 1))]

/-- The state behind these steps, if the write is started with the bytes `bytes`. -/
theorem run_oneWrite (hconf : TakesAsIs conf) {m : BinMessage B} {out bytes : Str} {key : MessageId B}
    (henc : conf.messageEncoder.performEncode m = .ok out) {first : PrepearedMessage B} {k : Nat} {s : System B}
    (h : Waiting first k s) (hbytes : bytes ≠ [])
    (hwrites : (s.comm.started (m.prepeared out)).socket.writes
      = s.comm.socket.writes ++ [.start key bytes]) :
    Machine.run (System.step conf) s (oneWrite m bytes k)
      = some ⟨(s.comm.started (m.prepeared out)).completed (k + 1)
          (.start key bytes), some .write⟩ := by
  have hw : Comm.pendingWrite (s.comm.started (m.prepeared out)) (k + 1)
      = some (.start key bytes) := by
    rw [Comm.pendingWrite, hwrites, ← h.writes, List.getElem?_concat_length]
    rfl
  have hcomplete := @complete_write B conf ⟨s.comm.started (m.prepeared out), some .write⟩ _ _ hw hbytes
  exact Machine.run_trans (start_write hconf henc h.proc h.session h.queue) hcomplete

/-- **A message under a free identifier** is reported. -/
theorem Waiting.step (hconf : TakesAsIs conf) {m : BinMessage B} {out : Str} (hout : out ≠ [])
    (henc : conf.messageEncoder.performEncode m = .ok out) {first : PrepearedMessage B} (hid : m.id = first.id)
    {k : Nat} {s : System B} (h : Waiting first k s) (hfree : Comm.intMidAt B (k + 1) ≠ 0) :
    ∃ s', Machine.run (System.step conf) s (oneWrite m out k) = some s' ∧ Waiting first (k + 1) s' := by
  have hnew : s.comm.internalMid ∉ s.comm.outBuffers := by
    rw [Std.ExtTreeMap.mem_iff_isSome_getElem?, h.out, h.next, if_neg hfree]
    exact Bool.false_ne_true
  have hwrites : (s.comm.started (m.prepeared out)).socket.writes = s.comm.socket.writes ++ [.start _ out] :=
    Comm.popAndWrite_free (c := s.comm.pushPrepearedMessage (m.prepeared out)) hnew (m.prepeared out)
  -- the buffer of the first message is under key zero, so the new one is another
  have hkey : s.comm.internalMid ≠ 0 := by
    rw [h.next]
    exact hfree
  have hfound : (s.comm.started (m.prepeared out)).outBuffers[s.comm.internalMid]? = some (m.prepeared out) := by
    rw [Comm.started_outBuffers, Table.getElem?_insertIfNew hnew, if_pos rfl]
  refine ⟨_, run_oneWrite hconf henc h hout hwrites, ?_⟩
  constructor
  case proc => rfl
  case session => exact (Comm.completed_userSession _ _ _).trans h.session
  case queue => exact (Comm.completed_prepearedMQueue _ _ _).trans (Comm.started_prepearedMQueue _ _ h.queue)
  case next =>
    rw [Comm.completed_internalMid, Comm.started_internalMid, h.next]
    exact BitVec.ofNat_add_ofNat _ _
  case out =>
    intro key
    rw [Comm.completed_outBuffers, Comm.started_outBuffers, Table.getElem?_erase, Table.getElem?_insertIfNew hnew]
    change (if s.comm.internalMid = key then none
      else if s.comm.internalMid = key then _ else s.comm.outBuffers[key]?) = _
    -- the new buffer is inserted and taken again, the old ones stay
    by_cases hsame : s.comm.internalMid = key
    · rw [if_pos hsame, if_neg (fun hzero => hkey (hsame.trans hzero))]
    · rw [if_neg hsame, if_neg hsame, h.out]
  case handed => rw [Comm.completed_handed, Comm.started_handed, List.length_append, h.handed]; rfl
  case writes => rw [Comm.length_writes_completed, hwrites, List.length_append, h.writes]; rfl
  case reported =>
    intro mid hmid
    rw [Comm.completed_reports, Comm.started_reports] at hmid
    rcases List.mem_append.mp hmid with hold | hnow
    · exact h.reported mid hold
    · change mid ∈ ((s.comm.started (m.prepeared out)).outBuffers[s.comm.internalMid]?).toList.map _ at hnow
      rw [hfound] at hnow
      rw [List.mem_singleton.mp hnow]
      exact hid

/-- **The counter comes round.** -/
theorem Waiting.run (hconf : TakesAsIs conf) {m : BinMessage B} {out : Str} (hout : out ≠ [])
    (henc : conf.messageEncoder.performEncode m = .ok out) {first : PrepearedMessage B} (hid : m.id = first.id)
    {s : System B} (h : Waiting first 0 s) (k : Nat) (hk : k < 2 ^ (8 * B.sizeofULong)) :
    ∃ as s', Machine.run (System.step conf) s as = some s' ∧ Waiting first k s' := by
  induction k with
  | zero => exact ⟨[], s, rfl, h⟩
  | succ k ih =>
      obtain ⟨as, t, hrun, ht⟩ := ih (Nat.lt_of_succ_lt hk)
      have hfree : Comm.intMidAt B (k + 1) ≠ 0 := by
        intro hzero
        have hmod : (k + 1) % 2 ^ (8 * B.sizeofULong) = 0 := by simpa [Comm.intMidAt] using congrArg BitVec.toNat hzero
        rw [Nat.mod_eq_of_lt hk] at hmod
        cases hmod
      obtain ⟨t', hstep, ht'⟩ := ht.step hconf hout henc hid hfree
      exact ⟨as ++ oneWrite m out k, t', Machine.run_trans hrun hstep, ht'⟩

/-- **A message under the identifier of the outstanding write**: its write completes, and the first message is
    reported. -/
theorem Waiting.lost (hconf : TakesAsIs conf) {m : BinMessage B} {out : Str}
    (henc : conf.messageEncoder.performEncode m = .ok out) {first : PrepearedMessage B} (hfirst : first.outBuffer ≠ [])
    {k : Nat} {s : System B} (h : Waiting first k s) (hround : Comm.intMidAt B (k + 1) = 0) :
    ∃ s', Machine.run (System.step conf) s (oneWrite m first.outBuffer k) = some s'
      ∧ s'.comm.handed = s.comm.handed ++ [m.prepeared out] ∧ ∀ mid ∈ s'.comm.reports, mid = first.id := by
  have hold : s.comm.outBuffers[s.comm.internalMid]? = some first := by
    rw [h.out, h.next, if_pos hround]
  obtain ⟨hsame, hwrites⟩ :=
    Comm.popAndWrite_taken (c := s.comm.pushPrepearedMessage (m.prepeared out)) hold (m.prepeared out)
  refine ⟨_, run_oneWrite hconf henc h hfirst hwrites, ?_, fun mid hmid => ?_⟩
  · exact (Comm.completed_handed _ _ _).trans (Comm.started_handed _ _)
  · rw [Comm.completed_reports, Comm.started_reports] at hmid
    rcases List.mem_append.mp hmid with hreported | hnow
    · exact h.reported mid hreported
    · have hfound : (s.comm.started (m.prepeared out)).outBuffers[s.comm.internalMid]? = some first :=
        (congrArg (·[s.comm.internalMid]?) hsame).trans hold
      change mid ∈ ((s.comm.started (m.prepeared out)).outBuffers[s.comm.internalMid]?).toList.map _ at hnow
      rw [hfound] at hnow
      exact List.mem_singleton.mp hnow

/-! ## On a build with four bytes -/

/-- A plain binary configuration. -/
def plainLlp64 : Config .llp64 := .binary (fun name => .ok ⟨name, 0, 0, 0, []⟩)

/-- The communicator is connected, and its thread stands before the queue. -/
def connected : List (Act .llp64) := [.env .connectSuccess, .enter, .stage .plain, .stage .plain, .stage .plain]

def one : BinMessage .llp64 := ⟨[0x61], 1, 0, 0, []⟩

def two : BinMessage .llp64 := ⟨[0x62], 2, 0, 0, []⟩

/-- **A write is lost.** While the write of a message with identifier 1 is outstanding, all but one of the internal
    identifiers are given to writes that complete; then a message with identifier 2 is written, and its write completes
    successfully. No notification of 2 was made or waits. -/
theorem sent_report_lost : ∃ (as : List (Act .llp64)) (s : System .llp64),
    Machine.run (System.step plainLlp64) (System.init 1) as = some s
      ∧ (∃ k m, (k, true) ∈ completions as ∧ s.comm.handed[k]? = some m ∧ m.id = 2)
      ∧ (2 : MessageId .llp64) ∉ s.comm.reports
      ∧ ¬ ReportedOnce as s := by
  have hconf : TakesAsIs plainLlp64 := ⟨rfl, rfl⟩
  obtain ⟨s₀, hrun₀, hproc, hsess, hqueue, hnext, hout, hhanded, hwrites, hreports⟩ :
      ∃ s, Machine.run (System.step plainLlp64) (System.init 1) connected = some s ∧ s.proc = some .write
        ∧ s.comm.userSession = true ∧ s.comm.prepearedMQueue = [] ∧ s.comm.internalMid = 0 ∧ s.comm.outBuffers = ∅
        ∧ s.comm.handed = [] ∧ s.comm.socket.writes = [] ∧ s.comm.reports = [] :=
    ⟨_, rfl, rfl, rfl, rfl, rfl, rfl, rfl, rfl, rfl⟩
  obtain ⟨out₁, henc₁, hne₁⟩ : ∃ out, plainLlp64.messageEncoder.performEncode one = .ok out ∧ out ≠ [] :=
    ⟨_, rfl, by decide +kernel⟩
  obtain ⟨out₂, henc₂⟩ : ∃ out, plainLlp64.messageEncoder.performEncode two = .ok out := ⟨_, rfl⟩
  have hrun₁ := start_write hconf henc₁ hproc hsess hqueue
  have hfirst := Waiting.start hsess hqueue hnext hout hhanded hwrites hreports (one.prepeared out₁)
  obtain ⟨as, s₂, hrun₂, hwaiting⟩ := hfirst.run hconf hne₁ henc₁ rfl (2 ^ 32 - 1) (by decide)
  obtain ⟨s₃, hrun₃, hlast, hreported⟩ := hwaiting.lost hconf henc₂ hne₁ (by decide)
  have hrun := Machine.run_trans (Machine.run_trans (Machine.run_trans hrun₀ hrun₁) hrun₂) hrun₃
  have hnot : (2 : MessageId .llp64) ∉ s₃.comm.reports := by
    intro hmem
    have hsame : (2 : MessageId .llp64) = 1 := hreported 2 hmem
    exact absurd hsame (by decide)
  have hhanded₃ : s₃.comm.handed[2 ^ 32]? = some (two.prepeared out₂) := by
    have hlen : s₂.comm.handed.length = 2 ^ 32 := hwaiting.handed
    rw [hlast, ← hlen, List.getElem?_concat_length]
  have hdone : ∀ as, (2 ^ 32, true) ∈ completions (as ++ oneWrite two out₁ (2 ^ 32 - 1)) := by
    intro as
    rw [completions, List.filterMap_append]
    exact List.mem_append_right _ List.mem_cons_self
  refine ⟨_, s₃, hrun, ⟨2 ^ 32, _, hdone _, hhanded₃, rfl⟩, hnot, fun honce => hnot ?_⟩
  -- the message of that write would have to be among those reported
  have hdue : some (two.prepeared out₂).id ∈ s₃.comm.reports.map some := by
    rw [Comm.reports, ← honce.reports]
    exact List.mem_map.mpr ⟨(2 ^ 32, true), List.mem_filter.mpr ⟨hdone _, rfl⟩, by rw [hhanded₃]; rfl⟩
  exact (List.mem_map_of_injective (Option.some_injective _)).mp hdue

end System

end Unicomm
