import Unicomm.Comm.Outgoing
import Unicomm.Lib.Table
import Unicomm.Lib.Transfer

/-!
# `Comm.WriteStream` — the bytes a communicator puts on its socket

`mt_start_write` starts one `async_write` for every message it pops and does not wait for the ones before.
`Flow` says what must hold between the buffers of the writes, what they have left and the stream: the
stream followed by the rests is the buffers one after the other. A transfer keeps that when it comes from the
**oldest** write with bytes left (`Flow.transfer`); a transfer out of turn puts bytes of two messages next to
each other (`mtStartWrite_interleaves`).

A write takes its bytes from the out buffers, where its message was put under a new internal identifier. The counter
of these wraps: under an identifier that a buffer still has, the older message is found (`popAndWrite_taken`).
-/

namespace Unicomm

variable {B : Build} {conf : Config B} {ch : Choice B}

namespace Comm

/-- The same messages handed over, the same writes and the same stream. -/
def SameWire (c c' : Comm B) : Prop :=
  c'.handed = c.handed ∧ c'.socket.writes = c.socket.writes ∧ c'.socket.stream = c.socket.stream

theorem SameWire.trans {a b c : Comm B} (h₁ : SameWire a b) (h₂ : SameWire b c) : SameWire a c :=
  ⟨h₂.1.trans h₁.1, h₂.2.1.trans h₁.2.1, h₂.2.2.trans h₁.2.2⟩

/-- Effects start no write and transfer nothing. -/
theorem Effect.sameWire {c c' : Comm B} (he : Effect conf ch c c') : SameWire c c' := by
  have hhanded : c'.handed = c.handed := by
    rcases he.outgoing with ⟨m, rfl⟩ | hsame
    · exact pushPrepearedMessage_handed m c
    · exact hsame.2.1
  refine ⟨hhanded, ?_⟩
  cases he with
  | sent hs hsent => rw [regSent]; split <;> exact ⟨rfl, rfl⟩
  | handshakeError => rw [disconnect]; split <;> exact ⟨rfl, rfl⟩
  | connected | ctorThrew | nullSession | taken | drawn | request | reply | discarded | pushed | clearUpdated
  | timeout | channelError | afterProcessed => exact ⟨rfl, rfl⟩

theorem send_sameWire (m : BinMessage B) (c : Comm B) : SameWire c (c.prepareToWrite conf m).comm := by
  refine prepareToWrite_invariant m ⟨rfl, rfl, rfl⟩ ?_ (fun d p hd => ?_)
  · exact ⟨(newMid_sameOutgoing c).2.1, rfl, rfl⟩
  · exact ⟨(pushPrepearedMessage_handed p d).trans hd.1, hd.2⟩

theorem mtAsioWriteHandler_socket (error : Nat) (intMid : MessageId B) (c : Comm B) :
    (c.mtAsioWriteHandler error intMid).socket = c.socket := by
  rw [mtAsioWriteHandler]
  simp only
  split
  · rfl
  · rw [mtRegSentMessage]; split <;> rfl

theorem mtAsioWriteHandler_handed (error : Nat) (intMid : MessageId B) (c : Comm B) :
    (c.mtAsioWriteHandler error intMid).handed = c.handed :=
  (mtAsioWriteHandler_frame error intMid c).2.2.2.filterMap_eq (fun _ => rfl)

/-! ## The stream and what the writes have left -/

/-- **The flow**: every handed message has its write, and the stream followed by what the writes have left is
    what they were started with. -/
structure Flow (c : Comm B) : Prop where
  buffers : c.socket.writes.map AsyncWrite.buffer = c.handed.map PrepearedMessage.outBuffer
  flow    : c.socket.stream ++ (c.socket.writes.map AsyncWrite.rest).flatten
              = (c.socket.writes.map AsyncWrite.buffer).flatten

theorem Flow.congr {c c' : Comm B} (h : c.Flow) (hsame : SameWire c c') : c'.Flow := by
  obtain ⟨h₁, h₂, h₃⟩ := hsame
  exact ⟨by rw [h₂, h₁, h.buffers], by rw [h₂, h₃, h.flow]⟩

/-- **Under a free internal identifier** a write is started with the bytes of its message. -/
theorem popAndWrite_free {c : Comm B} (hfree : c.internalMid ∉ c.outBuffers) (m : PrepearedMessage B) :
    (c.popAndWrite m).socket.writes = c.socket.writes ++ [AsyncWrite.start c.internalMid m.outBuffer] := by
  rw [popAndWrite_writes, Table.getD_insertIfNew hfree]

/-- **Under a taken one** the insertion is refused, and the write is started with the bytes of the older message. -/
theorem popAndWrite_taken {c : Comm B} {old : PrepearedMessage B} (htaken : c.outBuffers[c.internalMid]? = some old)
    (m : PrepearedMessage B) :
    (c.popAndWrite m).outBuffers = c.outBuffers
      ∧ (c.popAndWrite m).socket.writes
          = c.socket.writes ++ [AsyncWrite.start c.internalMid old.outBuffer] := by
  have hmem : c.internalMid ∈ c.outBuffers := by
    rw [Std.ExtTreeMap.mem_iff_isSome_getElem?, htaken]
    rfl
  have hsame : c.outBuffers.insertIfNew c.internalMid m = c.outBuffers := Table.insertIfNew_of_mem hmem
  have hfound : c.outBuffers.getD c.internalMid m = old := by
    rw [Std.ExtTreeMap.getD_eq_getD_getElem?, htaken, Option.getD_some]
  exact ⟨hsame, by rw [popAndWrite_writes, hsame, hfound]⟩

/-- A new write brings the buffer of its message and has all of it left. -/
theorem Flow.popAndWrite {c : Comm B} (h : c.Flow) (hfree : c.internalMid ∉ c.outBuffers) (m : PrepearedMessage B) :
    (c.popAndWrite m).Flow := by
  have hhanded : (c.popAndWrite m).handed = c.handed ++ [m] := handed_log _ _
  have hwrites := popAndWrite_free hfree m
  have hstream : (c.popAndWrite m).socket.stream = c.socket.stream := rfl
  constructor
  · rw [hwrites, hhanded, List.map_append, List.map_append, h.buffers]; rfl
  · rw [hwrites, hstream, List.map_append, List.map_append, List.flatten_append, List.flatten_append,
      ← List.append_assoc, h.flow]
    rfl

/-- A completion changes neither the buffers nor what is left. -/
theorem map_set_pending {β : Type} {f : AsyncWrite B → β} {ws : List (AsyncWrite B)} {i : Nat} {w w' : AsyncWrite B}
    (hw : ws[i]? = some w) (hf : f w' = f w) : (ws.set i w').map f = ws.map f := by
  obtain ⟨hi, rfl⟩ := List.getElem?_eq_some_iff.mp hw
  rw [List.map_set, hf, ← List.getElem_map f, List.set_getElem_self]
  · rw [List.length_map]; exact hi

theorem pendingWrite_eq_some {c : Comm B} {i : Nat} {w : AsyncWrite B} (h : c.pendingWrite i = some w) :
    c.socket.writes[i]? = some w := (Option.filter_eq_some_iff.mp h).1

theorem Flow.complete {c : Comm B} (h : c.Flow) {i : Nat} {w : AsyncWrite B} (hw : c.pendingWrite i = some w)
    (error : Nat) : ((c.setWrite i { w with pending := false }).mtAsioWriteHandler error w.intMid).Flow := by
  have hw' := pendingWrite_eq_some hw
  have hbuffers : (c.socket.writes.set i { w with pending := false }).map AsyncWrite.buffer
      = c.socket.writes.map AsyncWrite.buffer := map_set_pending hw' rfl
  have hrests : (c.socket.writes.set i { w with pending := false }).map AsyncWrite.rest
      = c.socket.writes.map AsyncWrite.rest := map_set_pending hw' rfl
  constructor
  · rw [mtAsioWriteHandler_handed, mtAsioWriteHandler_socket]
    exact hbuffers.trans h.buffers
  · rw [mtAsioWriteHandler_socket]
    change c.socket.stream ++ ((c.socket.writes.set i _).map AsyncWrite.rest).flatten
      = ((c.socket.writes.set i _).map AsyncWrite.buffer).flatten
    rw [hbuffers, hrests, h.flow]

/-- **A transfer in turn** moves bytes from the front of what is left to the end of the stream. -/
theorem Flow.transfer {c c' : Comm B} (h : c.Flow) {i n : Nat} (hstep : c.envStep conf (.writeSome i n) = some c')
    (hturn : ∀ w ∈ c.socket.writes.take i, w.rest = []) : c'.Flow := by
  rw [envStep] at hstep
  split at hstep
  · next w hw =>
      split at hstep <;> cases hstep
      have hw' := pendingWrite_eq_some hw
      have hbuffers : (c.socket.writes.set i { w with rest := w.rest.drop n }).map AsyncWrite.buffer
          = c.socket.writes.map AsyncWrite.buffer := map_set_pending hw' rfl
      constructor
      · exact hbuffers.trans h.buffers
      · have hrest : (c.socket.writes.map AsyncWrite.rest)[i]? = some w.rest := by
          rw [List.getElem?_map, hw']; rfl
        have hmove := Transfer.flatten_set_drop n hrest (by
          intro x hx
          rw [← List.map_take] at hx
          obtain ⟨v, hv, rfl⟩ := List.mem_map.mp hx
          exact hturn v hv)
        change (c.socket.stream ++ w.rest.take n)
            ++ ((c.socket.writes.set i { w with rest := w.rest.drop n }).map AsyncWrite.rest).flatten
          = ((c.socket.writes.set i { w with rest := w.rest.drop n }).map AsyncWrite.buffer).flatten
        rw [List.append_assoc, hbuffers, ← h.flow, List.map_set, hmove]
  · cases hstep

/-- Every other step of the environment keeps the flow. -/
theorem Flow.envStep {c c' : Comm B} {e : EnvAct B} (h : c.Flow) (hstep : c.envStep conf e = some c')
    (hturn : ∀ i n, e = .writeSome i n → ∀ w ∈ c.socket.writes.take i, w.rest = []) : c'.Flow := by
  cases e with
  | send m => cases hstep; exact h.congr (send_sameWire m c)
  | connectSuccess | handshake error | readAppend bytes | readUpdated | readFail error =>
      rw [Comm.envStep] at hstep
      split at hstep <;> cases hstep
      exact h.congr ⟨rfl, rfl, rfl⟩
  | writeSome i n => exact h.transfer hstep (hturn i n rfl)
  | writeDone i | writeFail i error =>
      rw [Comm.envStep] at hstep
      split at hstep
      · next w hw =>
          split at hstep <;> cases hstep
          exact h.complete hw _
      · cases hstep
  | disconnect =>
      cases hstep
      rw [disconnect]
      split <;> exact h.congr ⟨rfl, rfl, rfl⟩

end Comm

/-! ## Runs -/

namespace System

/-- The write operation a step transfers bytes of. -/
def Act.transfers? : Act B → Option Nat
  | .env (.writeSome i _) => some i
  | _                     => none

/-- Bytes are transferred only from the oldest write that has bytes left. -/
def WritesInTurn (s : System B) (a : Act B) : Prop :=
  ∀ i ∈ a.transfers?, ∀ w ∈ s.comm.socket.writes.take i, w.rest = []

instance (s : System B) (a : Act B) : Decidable (WritesInTurn s a) :=
  inferInstanceAs (Decidable (∀ i ∈ a.transfers?, ∀ w ∈ s.comm.socket.writes.take i, w.rest = []))

/-- The thread is about to start a write. -/
def starts (s : System B) : Bool :=
  match s.proc with
  | some (.popping _) => true
  | _                 => false

theorem proc_of_starts {s : System B} (h : s.starts = true) : ∃ m, s.proc = some (.popping m) := by
  rw [starts] at h
  split at h
  · next m hm => exact ⟨m, hm⟩
  · cases h

/-- A write is started only under an internal identifier that no buffer has. -/
def FreshIntMid (s : System B) : Act B → Prop
  | .stage _ => s.starts = true → s.comm.internalMid ∉ s.comm.outBuffers
  | _        => True

instance (s : System B) : ∀ a : Act B, Decidable (FreshIntMid s a)
  | .stage _ => inferInstanceAs (Decidable (s.starts = true → s.comm.internalMid ∉ s.comm.outBuffers))
  | .env _ | .enter => isTrue trivial

/-- **The writes are kept apart**: bytes are transferred in turn, and no two outstanding writes share a buffer. -/
def WritesApart (s : System B) (a : Act B) : Prop := WritesInTurn s a ∧ FreshIntMid s a

instance (s : System B) (a : Act B) : Decidable (WritesApart s a) :=
  inferInstanceAs (Decidable (WritesInTurn s a ∧ FreshIntMid s a))

/-- A step that starts a write, started it under a free identifier. -/
theorem FreshIntMid.free {s : System B} {ch : Choice B} {m : PrepearedMessage B} (h : FreshIntMid s (.stage ch))
    (hm : s.proc = some (.popping m)) : s.comm.internalMid ∉ s.comm.outBuffers :=
  h (by rw [starts, hm])

theorem flow_step {s s' : System B} {a : Act B} (hinv : s.Inv) (h : s.comm.Flow) (hok : WritesApart s a)
    (hs : System.step conf s a = some s') : s'.comm.Flow := by
  rcases step_cases conf hinv.session hs with ⟨e, c, rfl, hc, rfl⟩ | ⟨-, -, rfl⟩ | ⟨ch, m, rfl, hm, rfl⟩
    | ⟨ch, st, -, -, -, heff, -⟩
  · exact h.envStep hc (fun i n he => hok.1 i (by rw [he]; rfl))
  · exact h
  · exact h.popAndWrite (hok.2.free hm) m
  · exact heff.invariant (fun _ _ he hi => hi.congr he.sameWire) h

/-- **The stream is whole messages and a prefix of the next one**, in the order the messages were taken from
    the queue, as long as bytes are transferred only from the oldest write that has bytes left and no two
    outstanding writes share a buffer. -/
theorem stream_whole_messages (conf : Config B) (id : CommId) (as : List (Act B)) (s : System B)
    (hok : Machine.Guarded (System.step conf) WritesApart (System.init id) as)
    (hrun : Machine.run (System.step conf) (System.init id) as = some s) :
    ∃ k p, s.comm.socket.stream = ((s.comm.handed.take k).map PrepearedMessage.outBuffer).flatten ++ p
      ∧ (p = [] ∨ ∃ m, s.comm.handed[k]? = some m ∧ p <+: m.outBuffer) := by
  have hs : s.Inv ∧ s.comm.Flow := Machine.run_guarded_invariant (fun s => s.Inv ∧ s.comm.Flow)
    (fun _ _ _ hi hok hstep => ⟨hi.1.step hstep, flow_step hi.1 hi.2 hok hstep⟩) as _ _
    ⟨.init id, rfl, rfl⟩ hok hrun
  have hprefix : s.comm.socket.stream <+: (s.comm.handed.map PrepearedMessage.outBuffer).flatten := by
    rw [← hs.2.buffers, ← hs.2.flow]
    exact List.prefix_append _ _
  obtain ⟨k, p, hstream, hp⟩ := Transfer.prefix_flatten_iff.mp hprefix
  refine ⟨k, p, by rw [List.map_take]; exact hstream, hp.imp_right ?_⟩
  rintro ⟨b, hb, hpb⟩
  rw [List.getElem?_map, Option.map_eq_some_iff] at hb
  obtain ⟨m, hm, rfl⟩ := hb
  exact ⟨m, hm, hpb⟩

/-- A run that starts the writes of two messages, `a` and `b`, one after the other. -/
def twoWrites : List (Act .lp64) :=
  [.env .connectSuccess, .enter, .stage .plain, .env (.send ⟨[0x61], 0, 0, 0, []⟩),
    .env (.send ⟨[0x62], 0, 0, 0, []⟩), .stage .plain, .stage .plain, .stage .plain, .stage .plain,
    .stage .plain, .stage .plain]

/-- The first message goes out in two pieces, then the second one begins. -/
def inTurn : List (Act .lp64) :=
  twoWrites ++ [.env (.writeSome 0 2), .env (.writeSome 0 3), .env (.writeSome 1 4)]

/-- A run whose transfers come in turn. -/
theorem stream_whole_messages_inTurn : ∃ s,
    Machine.run (System.step Config.plain) (System.init 1) inTurn = some s
      ∧ ∃ k p, s.comm.socket.stream = ((s.comm.handed.take k).map PrepearedMessage.outBuffer).flatten ++ p
        ∧ (p = [] ∨ ∃ m, s.comm.handed[k]? = some m ∧ p <+: m.outBuffer) :=
  ⟨_, rfl, stream_whole_messages .plain 1 inTurn _ (by decide +kernel) rfl⟩

/-- **Two outstanding writes can interleave**: one byte of each message, and the stream is no longer made of
    messages. -/
theorem mtStartWrite_interleaves : ¬ ∀ (as : List (Act .lp64)) (s : System .lp64),
    Machine.run (System.step Config.plain) (System.init 1) as = some s →
    ∃ k p, s.comm.socket.stream = ((s.comm.handed.take k).map PrepearedMessage.outBuffer).flatten ++ p
      ∧ (p = [] ∨ ∃ m, s.comm.handed[k]? = some m ∧ p <+: m.outBuffer) := by
  intro hclaim
  have hrun : ∃ s, Machine.run (System.step Config.plain) (System.init 1)
      (twoWrites ++ [.env (.writeSome 0 1), .env (.writeSome 1 1)]) = some s
      ∧ s.comm.socket.stream = [0, 0]
      ∧ s.comm.handed.map PrepearedMessage.outBuffer = [[0, 4, 0, 0x61, 0xff], [0, 4, 0, 0x62, 0xff]] :=
    ⟨_, rfl, by decide +kernel⟩
  obtain ⟨s, hs, hstream, hhanded⟩ := hrun
  obtain ⟨k, p, hkp, hp⟩ := hclaim _ s hs
  have hprefix : s.comm.socket.stream <+: (s.comm.handed.map PrepearedMessage.outBuffer).flatten := by
    refine Transfer.prefix_flatten_iff.mpr ⟨k, p, by rw [← List.map_take]; exact hkp, hp.imp_right ?_⟩
    rintro ⟨m, hm, hpm⟩
    exact ⟨m.outBuffer, by rw [List.getElem?_map, hm]; rfl, hpm⟩
  rw [hstream, hhanded] at hprefix
  exact absurd hprefix (by decide)

end System

end Unicomm
