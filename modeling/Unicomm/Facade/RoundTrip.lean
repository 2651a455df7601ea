import Mathlib.Data.List.Forall2
import Unicomm.Lib.Delimited
import Unicomm.Facade.BinCodec

/-!
# `Facade.RoundTrip` — a stream of binary messages, cut anywhere

The receiver appends whatever arrives to its buffer and calls `perform_decode` until it returns null. The
argument has two halves. **Framing**: what the receiver does to a stream is to cut it at the end markers and
decode each frame on its own (`receive_eq`), so where the stream was cut does not matter. **One frame**: a
message's frame decodes to that message when its header is shorter than 128 bytes (`decodeMessage_short`), and
not at all when it is longer (`decodeMessage_long`).
-/

namespace Unicomm

variable {B : Build}

/-! ## The receiver -/

section Receiver

variable (factory : Str → Except Exc (BinMessage B))

/-- No end marker, no raw message. -/
theorem findRawMessage_open {buffer : Str} (h : binMessageEnd ∉ buffer) :
    findRawMessage buffer = ⟨buffer.length, buffer.length⟩ := by
  rw [findRawMessage, List.idxOf?_eq_none_iff.mpr h]

/-- The raw message ends with the first end marker. -/
theorem findRawMessage_frame {frame : Str} (h : binMessageEnd ∉ frame) (rest : Str) :
    findRawMessage (frame ++ binMessageEnd :: rest) = ⟨0, (frame ++ [binMessageEnd]).length⟩ := by
  have hidx : (frame ++ binMessageEnd :: rest).idxOf? binMessageEnd = some frame.length := by
    rw [List.idxOf?, List.findIdx?_append, List.findIdx?_eq_none_iff.mpr, List.findIdx?_cons]
    · simp
    · intro x hx
      exact beq_false_of_ne (fun he => h (he ▸ hx))
  have hlen : (frame ++ [binMessageEnd]).length = frame.length + 1 := List.length_append
  rw [findRawMessage, hidx, hlen]

/-- A buffer without an end marker is left alone. -/
theorem performDecode_open {buffer : Str} (h : binMessageEnd ∉ buffer) :
    (binMessageDecoder factory).performDecode buffer = (.ok none, buffer) := by
  rw [MessageDecoder.performDecode]
  simp only [binMessageDecoder, findRawMessage_open h, ne_eq, not_true_eq_false, if_false]

/-- The first frame leaves the buffer, whatever becomes of it. -/
theorem performDecode_frame {frame : Str} (h : binMessageEnd ∉ frame) (rest : Str) :
    (binMessageDecoder factory).performDecode (frame ++ binMessageEnd :: rest)
      = (((binMessageDecoder factory).decodeMessage (frame ++ [binMessageEnd])).map some, rest) := by
  have hne : 0 ≠ (frame ++ [binMessageEnd]).length := by simp
  have hsplit : frame ++ binMessageEnd :: rest = (frame ++ [binMessageEnd]) ++ rest := by simp
  rw [MessageDecoder.performDecode]
  simp only [binMessageDecoder, findRawMessage_frame h, ne_eq, hne, not_false_eq_true, if_true,
    List.take_zero, List.drop_zero, List.nil_append]
  rw [hsplit, List.take_left, List.drop_left]

/-- A decoded message has left the buffer, so the buffer is shorter. -/
theorem length_performDecode {buffer : Str} {m : BinMessage B} {rest : Str}
    (h : (binMessageDecoder factory).performDecode buffer = (.ok (some m), rest)) :
    rest.length < buffer.length := by
  by_cases hmem : binMessageEnd ∈ buffer
  · obtain ⟨frame, t, rfl, hframe⟩ := List.eq_append_cons_of_mem hmem
    rw [performDecode_frame factory hframe] at h
    obtain ⟨_, rfl⟩ := Prod.mk.inj h
    simp only [List.length_append, List.length_cons]; omega
  · rw [performDecode_open factory hmem] at h
    cases h

/-- Call `perform_decode` until it returns null: the messages, and the buffer that is left. -/
def drain (buffer : Str) : Except Exc (List (BinMessage B) × Str) :=
  match h : (binMessageDecoder factory).performDecode buffer with
  | (.error e, _)       => .error e
  | (.ok none, rest)    => .ok ([], rest)
  | (.ok (some m), rest) =>
      have := length_performDecode factory h
      (drain rest).map (fun p => (m :: p.1, p.2))
termination_by buffer.length

/-- The receiver: each piece is appended to the buffer, which is then drained. -/
def receive (buffer : Str) : List Str → Except Exc (List (BinMessage B) × Str)
  | []          => .ok ([], buffer)
  | cut :: cuts =>
      (drain factory (buffer ++ cut)).bind (fun p =>
        (receive p.2 cuts).map (fun q => (p.1 ++ q.1, q.2)))

/-! ## Framing -/

/-- Decode one frame, given without its end marker. -/
def decodeFrame (frame : Str) : Except Exc (BinMessage B) :=
  (binMessageDecoder factory).decodeMessage (frame ++ [binMessageEnd])

/-- What comes out of a stream: its frames, each decoded, and its unfinished tail. -/
def decodeFrames (stream : Str) : Except Exc (List (BinMessage B) × Str) :=
  ((Delimited.split binMessageEnd stream).1.mapM (decodeFrame factory)).map
    (fun ms => (ms, (Delimited.split binMessageEnd stream).2))

theorem decodeFrames_open {stream : Str} (h : binMessageEnd ∉ stream) :
    decodeFrames factory stream = .ok ([], stream) := by
  rw [decodeFrames, Delimited.split_open h]
  rfl

theorem decodeFrames_frame {frame : Str} (h : binMessageEnd ∉ frame) (rest : Str) :
    decodeFrames factory (frame ++ binMessageEnd :: rest)
      = (decodeFrame factory frame).bind (fun m =>
          (decodeFrames factory rest).map (fun p => (m :: p.1, p.2))) := by
  rw [decodeFrames, Delimited.split_frame h, List.mapM_cons, decodeFrames]
  cases decodeFrame factory frame with
  | error e => rfl
  | ok m    => cases List.mapM (decodeFrame factory) (Delimited.split binMessageEnd rest).1 <;> rfl

/-- Decoding a stream is decoding its first part, then what that leaves over together with the rest. -/
theorem decodeFrames_append (a b : Str) :
    decodeFrames factory (a ++ b)
      = (decodeFrames factory a).bind (fun p =>
          (decodeFrames factory (p.2 ++ b)).map (fun q => (p.1 ++ q.1, q.2))) := by
  rw [decodeFrames, Delimited.split_append, List.mapM_append, decodeFrames]
  cases (Delimited.split binMessageEnd a).1.mapM (decodeFrame factory) with
  | error e => rfl
  | ok ms =>
      simp only [Except.map, Except.bind]
      rw [decodeFrames]
      cases List.mapM (decodeFrame factory)
        (Delimited.split binMessageEnd ((Delimited.split binMessageEnd a).2 ++ b)).1 <;> rfl

/-- What is left over holds no complete frame. -/
theorem notMem_decodeFrames {stream : Str} {p : List (BinMessage B) × Str}
    (h : decodeFrames factory stream = .ok p) : binMessageEnd ∉ p.2 := by
  rw [decodeFrames] at h
  cases hms : (Delimited.split binMessageEnd stream).1.mapM (decodeFrame factory) with
  | error e => rw [hms] at h; cases h
  | ok ms =>
      rw [hms] at h
      cases h
      exact Delimited.notMem_tail binMessageEnd stream

/-- Draining decodes the frames of the buffer. -/
theorem drain_eq (buffer : Str) : drain factory buffer = decodeFrames factory buffer := by
  induction hn : buffer.length using Nat.strong_induction_on generalizing buffer with
  | _ n ih =>
      by_cases hmem : binMessageEnd ∈ buffer
      · obtain ⟨frame, rest, rfl, hframe⟩ := List.eq_append_cons_of_mem hmem
        have hlt : rest.length < n := by
          rw [← hn, List.length_append, List.length_cons]; omega
        rw [decodeFrames_frame factory hframe, ← ih rest.length hlt rest rfl, drain]
        have hdec := performDecode_frame factory hframe rest
        rw [← decodeFrame] at hdec
        cases hf : decodeFrame factory frame with
        | error e =>
            rw [hf] at hdec
            split <;> simp_all [Except.map, Except.bind]
        | ok m =>
            rw [hf] at hdec
            split <;> simp_all [Except.map, Except.bind]
      · rw [decodeFrames_open factory hmem, drain]
        have hdec := performDecode_open factory hmem
        split <;> simp_all

/-- **The cuts do not matter.** A receiver whose buffer holds no complete frame decodes the frames of the
    whole stream, in order, and keeps its tail. -/
theorem receive_eq {buffer : Str} (h : binMessageEnd ∉ buffer) (cuts : List Str) :
    receive factory buffer cuts = decodeFrames factory (buffer ++ cuts.flatten) := by
  induction cuts generalizing buffer with
  | nil => rw [receive, List.flatten_nil, List.append_nil, decodeFrames_open factory h]
  | cons cut cuts ih =>
      rw [receive, drain_eq, List.flatten_cons, ← List.append_assoc,
        decodeFrames_append factory (buffer ++ cut)]
      cases hcut : decodeFrames factory (buffer ++ cut) with
      | error e => rfl
      | ok p =>
          have hopen : binMessageEnd ∉ p.2 := notMem_decodeFrames factory hcut
          simp only [Except.bind]
          rw [ih hopen]

end Receiver

/-! ## The sender's stream -/

/-- `mapM` succeeds when it succeeds element by element. -/
theorem mapM_eq_ok {α β : Type} {f : α → Except Exc β} {xs : List α} {ys : List β} :
    xs.mapM f = .ok ys ↔ List.Forall₂ (fun x y => f x = .ok y) xs ys := by
  induction xs generalizing ys with
  | nil =>
      rw [List.mapM_nil, List.forall₂_nil_left_iff]
      exact ⟨fun h => (Except.ok.inj h).symm, fun h => h ▸ rfl⟩
  | cons x xs ih =>
      rw [List.mapM_cons]
      cases hx : f x with
      | error e =>
          constructor
          · intro h; cases h
          · rintro (_ | ⟨h, _⟩); rw [hx] at h; cases h
      | ok y =>
          cases hxs : xs.mapM f with
          | error e =>
              constructor
              · intro h; cases h
              · rintro (_ | ⟨_, h⟩); rw [← ih, hxs] at h; cases h
          | ok ys' =>
              have hys' := ih.mp hxs
              constructor
              · intro h; cases h; exact .cons hx hys'
              · rintro (_ | ⟨h, hrest⟩)
                rw [hx] at h
                rw [← ih, hxs] at hrest
                cases h; cases hrest; rfl

/-- Where `mapM` succeeds, `f` succeeds on every element. -/
theorem exists_ok_of_mem {α β : Type} {f : α → Except Exc β} {xs : List α} {ys : List β}
    (h : List.Forall₂ (fun x y => f x = .ok y) xs ys) {x : α} (hx : x ∈ xs) : ∃ y, f x = .ok y := by
  induction h with
  | nil => exact absurd hx List.not_mem_nil
  | @cons a b xs ys hab _ ih =>
      rcases List.mem_cons.mp hx with rfl | hx
      · exact ⟨b, hab⟩
      · exact ih hx

theorem binMessageEnd_notMem_stuff (s : Str) : binMessageEnd ∉ binStuffing.stuff s :=
  binStuffing.fin_notMem_stuff s

/-- What a sender that encodes messages one after the other puts on the wire is cut into the stuffed
    layouts. -/
theorem split_encoded {ms : List (BinMessage B)} {outs : List Str}
    (hout : List.Forall₂ (fun m out => binMessageEncoder.performEncode m = .ok out) ms outs) :
    Delimited.split binMessageEnd outs.flatten = (ms.map (fun m => binStuffing.stuff m.layout), []) := by
  induction hout with
  | nil => rfl
  | @cons m out ms outs hm _ ih =>
      obtain ⟨_, _, rfl⟩ := performEncode_eq hm
      rw [List.flatten_cons, List.append_assoc, List.singleton_append,
        Delimited.split_frame (binMessageEnd_notMem_stuff m.layout), ih]
      rfl

/-- What a message carries over the wire. The priority stays at the sender. -/
def BinMessage.wire (m : BinMessage B) : Str × MessageId B × MessageId B × Str :=
  (m.name, m.id, m.rid, m.tail)

namespace FreshFactory

variable (factory : FreshFactory B)

/-- A receiver that starts with an empty buffer and whose factory knows every name. -/
def receive (cuts : List Str) : Except Exc (List (BinMessage B) × Str) :=
  Unicomm.receive (fun name => .ok (factory.create name)) [] cuts

/-- What the receiver makes of a message that comes through. -/
def received (m : BinMessage B) : BinMessage B :=
  { factory.create m.name with id := m.id, rid := m.rid, tail := m.tail }

theorem wire_received (m : BinMessage B) : (factory.received m).wire = m.wire := by
  simp only [BinMessage.wire, received, factory.name_create]

/-- The receiver decodes the layouts one by one. -/
theorem receive_encoded {ms : List (BinMessage B)} {outs cuts : List Str}
    (hout : List.Forall₂ (fun m out => binMessageEncoder.performEncode m = .ok out) ms outs)
    (hcuts : cuts.flatten = outs.flatten) :
    factory.receive cuts = ((ms.map (fun m => binStuffing.stuff m.layout)).mapM
      (decodeFrame (fun name => .ok (factory.create name)))).map (fun got => (got, [])) := by
  rw [receive, receive_eq _ List.not_mem_nil, List.nil_append, hcuts, decodeFrames, split_encoded hout]

/-- **Round trip of the binary format.** Whatever the messages and wherever their stream is cut, the receiver
    gets exactly the messages sent, without an exception and with an empty buffer at the end, if and only if
    no message's header is longer than 127 bytes. -/
theorem receive_performEncode (ms : List (BinMessage B)) (outs cuts : List Str)
    (hout : ms.mapM binMessageEncoder.performEncode = .ok outs) (hcuts : cuts.flatten = outs.flatten) :
    (∃ got, factory.receive cuts = .ok (got, []) ∧ got.map BinMessage.wire = ms.map BinMessage.wire)
      ↔ ∀ m ∈ ms, m.headLen ≤ 127 := by
  have henc := mapM_eq_ok.mp hout
  rw [factory.receive_encoded henc hcuts]
  constructor
  · -- a message with a longer header is not decoded, so the receiver would have thrown
    rintro ⟨got, hgot, _⟩ m hm
    cases hdec : (ms.map (fun m => binStuffing.stuff m.layout)).mapM
        (decodeFrame (fun name => .ok (factory.create name))) with
    | error e => rw [hdec] at hgot; cases hgot
    | ok gs =>
        obtain ⟨g, hg⟩ := exists_ok_of_mem (mapM_eq_ok.mp hdec)
          (List.mem_map_of_mem (f := fun m => binStuffing.stuff m.layout) hm)
        obtain ⟨out, hout⟩ := exists_ok_of_mem henc hm
        obtain ⟨hbyte, hfit, _⟩ := performEncode_eq hout
        by_contra hlong
        rw [decodeFrame, decodeMessage_long _ (by omega) hbyte hfit] at hg
        cases hg
  · intro hshort
    have hdec : (ms.map (fun m => binStuffing.stuff m.layout)).mapM
        (decodeFrame (fun name => .ok (factory.create name))) = .ok (ms.map factory.received) := by
      rw [mapM_eq_ok, List.forall₂_map_left_iff, List.forall₂_map_right_iff, List.forall₂_same]
      exact fun m hm => decodeMessage_short factory (hshort m hm)
    refine ⟨ms.map factory.received, by rw [hdec]; rfl, ?_⟩
    rw [List.map_map]
    exact List.map_congr_left (fun m _ => factory.wire_received m)

/-- The factory of plain messages. -/
def plain : FreshFactory B := ⟨fun name => ⟨name, 0, 0, 0, []⟩, fun _ => rfl, fun _ => rfl, fun _ => rfl⟩

/-- A message whose identifier and tail hold reserved bytes, received in two pieces that part an escape
    pair. -/
theorem receive_performEncode_cut :
    (∃ got, (plain : FreshFactory .llp64).receive [[0, 0x08, 0x01, 0x61, 0xfe], [0xbe, 0, 0, 0, 0xfe, 0xbf, 0xff]]
        = .ok (got, [])
      ∧ got.map BinMessage.wire = [(⟨[0x61], 0xfe, 0, 7, [0xff]⟩ : BinMessage .llp64)].map BinMessage.wire)
      ↔ ∀ m ∈ [(⟨[0x61], 0xfe, 0, 7, [0xff]⟩ : BinMessage .llp64)], m.headLen ≤ 127 :=
  receive_performEncode plain [⟨[0x61], 0xfe, 0, 7, [0xff]⟩]
    [[0, 0x08, 0x01, 0x61, 0xfe, 0xbe, 0, 0, 0, 0xfe, 0xbf, 0xff]] _ (by decide) (by decide)

/-- A message with a name of 125 bytes: its header has 128. -/
def longNamed : BinMessage .lp64 := ⟨List.replicate 125 0x61, 0, 0, 0, []⟩

/-- **The round trip fails on a header of 128 bytes**: the message is encoded, and the decoder throws. -/
theorem receive_longNamed : ¬ ∀ (ms : List (BinMessage .lp64)) (outs cuts : List Str),
    ms.mapM binMessageEncoder.performEncode = .ok outs → cuts.flatten = outs.flatten →
    ∃ got, (plain : FreshFactory .lp64).receive cuts = .ok (got, [])
      ∧ got.map BinMessage.wire = ms.map BinMessage.wire := by
  intro hclaim
  have hencode : [longNamed].mapM binMessageEncoder.performEncode
      = .ok [[0, 0x80, 0] ++ List.replicate 125 0x61 ++ [0xff]] := by decide +kernel
  obtain ⟨got, hgot, _⟩ := hclaim [longNamed] _ _ hencode rfl
  rw [receive_encoded _ (mapM_eq_ok.mp hencode) rfl, List.map_cons, List.mapM_cons, decodeFrame,
    decodeMessage_long _ (by decide +kernel) (by decide +kernel) (by decide +kernel)] at hgot
  cases hgot

end FreshFactory

end Unicomm
