import Unicomm.Comm.Link

/-!
# `Comm.Delivery` — from the sender's queue to the receiver's handler

Four results about one communicator meet here: what was pushed was given by user code (`Comm.Origin`), what was
pushed is handed to the socket in order (`Comm.Outgoing`), what was handed over is the stream (`Comm.WriteStream`),
and the stream is cut into its frames again (`Comm.Framing`). Over a link they say what a maintainer wants to know
about the library as a whole: what arrives at one end is what the other end sent.

Each of the four has its condition, and a theorem here asks for those it uses: writes apart at the sender (transfers
in turn and no write under an identifier that still has a buffer), nothing pushed past a message that is being
popped, one thread at the receiver.
-/

namespace Unicomm

variable {B : Build} {conf : Config B} {ch : Choice B}

/-! ## What is decoded -/

/-- A decoder decodes the raw message it takes, and nothing if it takes none. -/
theorem MessageDecoder.performDecode_fst {M : Type} (d : MessageDecoder M) (buffer : Str) :
    (d.performDecode buffer).1 = match d.rawMessage buffer with
      | some raw => (d.decodeMessage raw).map some
      | none     => .ok none := by
  by_cases hfinds : d.Finds buffer
  · rw [MessageDecoder.performDecode_of_finds hfinds, MessageDecoder.rawMessage, if_pos hfinds]
  · rw [MessageDecoder.performDecode_of_not_finds hfinds, MessageDecoder.rawMessage, if_neg hfinds]

/-- The messages that come out of raw messages; one that does not decode throws. -/
def MessageDecoder.decodedOf {M : Type} (d : MessageDecoder M) (raws : List Str) : List M :=
  raws.filterMap (fun raw => (d.decodeMessage raw).toOption)

namespace System

/-- **What arrives in a step is the message decoded in it**, or nothing. -/
theorem arrivals_step {s s' : System B} {a : Act B} (h : System.step conf s a = some s') :
    ∃ ms, s'.comm.arrivals = s.comm.arrivals ++ ms
      ∧ ms.Sublist (conf.messageDecoder.decodedOf (taken conf s a)) := by
  cases a with
  | env e =>
      obtain ⟨c, hc, rfl⟩ := Option.map_eq_some_iff.mp h
      refine ⟨[], ?_, List.nil_sublist _⟩
      rw [List.append_nil]
      rcases Comm.envStep_cases hc with ⟨m, rfl, rfl⟩ | he
      · exact Comm.filterMap_prepareToWrite (fun _ => rfl) (fun _ => rfl) m s.comm
      · exact (Comm.envStep_frame hc he).2.2.2.filterMap_eq (fun _ => rfl)
  | enter =>
      rw [System.step] at h
      split at h <;> cases h
      exact ⟨[], (List.append_nil _).symm, List.nil_sublist _⟩
  | stage ch =>
      obtain ⟨st, hst, rfl⟩ := step_stage h
      by_cases hdec : st = .decode
      · subst hdec
        have hquiet : (Comm.mtPerformDecode conf s.comm).2.arrivals = s.comm.arrivals := by
          unfold Comm.mtPerformDecode
          split <;> rfl
        have hsame : ∃ ms, s.comm.arrivals = s.comm.arrivals ++ ms
            ∧ ms.Sublist (conf.messageDecoder.decodedOf (taken conf s (.stage ch))) :=
          ⟨[], (List.append_nil _).symm, List.nil_sublist _⟩
        rw [Comm.runStage]
        split
        · next hopen =>
            rcases hr : Comm.mtPerformDecode conf s.comm with ⟨e | _ | m, d⟩ <;> rw [hr] at hquiet
            · rw [← hquiet] at hsame
              exact hquiet ▸ hsame
            · rw [← hquiet] at hsame
              exact hquiet ▸ hsame
            · -- the message that was decoded is the one in the raw message that was taken
              have hs : s.comm.userSession = true := Comm.session_of_mtPerformDecode (by rw [hr])
              have hd : d.userSession = true := by
                have hkept : (Comm.mtPerformDecode conf s.comm).2.userSession = s.comm.userSession :=
                  Comm.mtPerformDecode_userSession s.comm
                rw [hr, hs] at hkept
                exact hkept
              refine ⟨if Comm.passes conf d m then [m] else [], ?_, ?_⟩
              · simp only [Comm.proceed_fst]
                rw [Comm.arrivals_processIncoming hd]
                exact congrArg (· ++ _) hquiet
              · have hfirst : (conf.messageDecoder.performDecode s.comm.inBuffer).1 = .ok (some m) := by
                  have hr' := congrArg Prod.fst hr
                  rwa [Comm.mtPerformDecode, if_pos hs] at hr'
                rw [MessageDecoder.performDecode_fst] at hfirst
                cases hraw : conf.messageDecoder.rawMessage s.comm.inBuffer with
                | none =>
                    rw [hraw] at hfirst
                    cases hfirst
                | some raw =>
                    rw [hraw] at hfirst
                    have hdecoded : conf.messageDecoder.decodeMessage raw = .ok m := by
                      cases hm : conf.messageDecoder.decodeMessage raw with
                      | error e => simp only [hm] at hfirst; cases hfirst
                      | ok m'   => simp only [hm] at hfirst; cases hfirst; rfl
                    have htaken : taken conf s (.stage ch) = [raw] := by
                      rw [taken, if_pos ⟨hst, hopen, hs⟩, hraw]
                      rfl
                    rw [htaken]
                    have hone : conf.messageDecoder.decodedOf [raw] = [m] := by
                      simp [MessageDecoder.decodedOf, hdecoded, Except.toOption]
                    rw [hone]
                    split
                    · exact List.Sublist.refl _
                    · exact List.nil_sublist _
        · exact hsame
      · refine ⟨[], ?_, List.nil_sublist _⟩
        rw [List.append_nil]
        exact Comm.filterMap_runStage_of_ne (fun e he => by cases e <;> first | rfl | cases he) hdec s.comm

/-- **What arrives was decoded**, each message once and in order, in every reachable state. -/
theorem arrivals_sublist {id : CommId} {as : List (Act B)} {s : System B}
    (h : Machine.run (System.step conf) (System.init id) as = some s) :
    s.comm.arrivals.Sublist (conf.messageDecoder.decodedOf (takenFrames conf id as)) := by
  refine Machine.run_outputs_of_step (taken conf)
    (fun _ raws (s : System B) => s.comm.arrivals.Sublist (conf.messageDecoder.decodedOf raws))
    (fun past raws s a s' hi hs => ?_) (List.nil_sublist _) h
  obtain ⟨ms, harrivals, hms⟩ := arrivals_step hs
  rw [harrivals, MessageDecoder.decodedOf, List.filterMap_append]
  exact hi.append hms

/-- What was handed to the socket makes up the stream and what the writes have left. -/
theorem stream_flow {id : CommId} {as : List (Act B)} {s : System B}
    (hg : Machine.Guarded (System.step conf) WritesApart (System.init id) as)
    (h : Machine.run (System.step conf) (System.init id) as = some s) :
    s.comm.socket.stream ++ (s.comm.socket.writes.map AsyncWrite.rest).flatten
      = (s.comm.handed.map PrepearedMessage.outBuffer).flatten := by
  have hflow : s.Inv ∧ s.comm.Flow := Machine.run_guarded_invariant (fun s => s.Inv ∧ s.comm.Flow)
    (fun _ _ _ hi hok hstep => ⟨hi.1.step hstep, flow_step hi.1 hi.2 hok hstep⟩) as _ _ ⟨.init id, rfl, rfl⟩ hg h
  rw [hflow.2.flow, hflow.2.buffers]

end System

/-! ## What the other end makes of it -/

/-- A configuration with the binary format, whose factory makes messages of every name. -/
structure Config.Binary (conf : Config B) (factory : FreshFactory B) : Prop where
  encoder : conf.messageEncoder = binMessageEncoder
  decoder : conf.messageDecoder = binMessageDecoder (fun name => .ok (factory.create name))

/-- The frame of a message, without its end marker. -/
def BinMessage.frame (m : BinMessage B) : Str := binStuffing.stuff m.layout

/-- The messages of a list whose headers come through. -/
def shortHeaded (ms : List (BinMessage B)) : List (BinMessage B) := ms.filter (fun m => m.headLen ≤ 127)

/-- The encoding of a message is its frame and the end marker. -/
theorem PrepearedMessage.Encodes.outBuffer_eq {factory : FreshFactory B} (hconf : conf.Binary factory)
    {p : PrepearedMessage B} {m : BinMessage B} (h : p.Encodes conf m) :
    p.outBuffer = m.frame ++ [binMessageEnd] ∧ m.headLen ≤ 255 ∧ m.layout.length ≤ B.maxSize := by
  have henc := h.bytes
  rw [hconf.encoder] at henc
  obtain ⟨hbyte, hfit, hout⟩ := performEncode_eq henc
  exact ⟨hout, hbyte, hfit⟩

/-- **What is decoded from encoded messages** are those whose headers are short, with their contents. -/
theorem decodedOf_frames {factory : FreshFactory B} (hconf : conf.Binary factory) {ms : List (BinMessage B)}
    (hms : ∀ m ∈ ms, m.headLen ≤ 255 ∧ m.layout.length ≤ B.maxSize) :
    conf.messageDecoder.decodedOf (ms.map (fun m => m.frame ++ [binMessageEnd]))
      = (shortHeaded ms).map factory.received := by
  rw [MessageDecoder.decodedOf, List.filterMap_map, shortHeaded, hconf.decoder]
  induction ms with
  | nil => rfl
  | cons m ms ih =>
      have ih := ih (fun m' hm' => hms m' (List.mem_cons_of_mem m hm'))
      obtain ⟨hbyte, hfit⟩ := hms m List.mem_cons_self
      by_cases hshort : m.headLen ≤ 127
      · have hdecode : (binMessageDecoder (fun name => .ok (factory.create name))).decodeMessage
            (m.frame ++ [binMessageEnd]) = .ok (factory.received m) := decodeMessage_short factory hshort
        rw [List.filter_cons_of_pos (by simpa using hshort), List.map_cons, ← ih]
        exact List.filterMap_cons_some (by simp only [Function.comp_apply, hdecode]; rfl)
      · have hdecode : (binMessageDecoder (fun name => .ok (factory.create name))).decodeMessage
            (m.frame ++ [binMessageEnd])
              = .error (.messageDecoderError "Invalid message format [Incomplete header received]") :=
          decodeMessage_long _ (by omega) hbyte hfit
        rw [List.filter_cons_of_neg (by simpa using hshort), ← ih]
        exact List.filterMap_cons_none (by simp only [Function.comp_apply, hdecode]; rfl)

/-- `ms` are the messages the handed buffers encode, and each was given to the communicator by user code. -/
def HandedOver (conf : Config B) (past : List (System.Act B)) (c : Comm B) (ms : List (BinMessage B)) : Prop :=
  List.Forall₂ (fun p m => p.Encodes conf m ∧ Origin past c.arrivals m) c.handed ms

/-- Where each element has a partner, there is a list of partners. -/
theorem exists_forall₂ {α β : Type} {R : α → β → Prop} {xs : List α} (h : ∀ x ∈ xs, ∃ y, R x y) :
    ∃ ys, List.Forall₂ R xs ys := by
  induction xs with
  | nil => exact ⟨[], .nil⟩
  | cons x xs ih =>
      obtain ⟨y, hy⟩ := h x List.mem_cons_self
      obtain ⟨ys, hys⟩ := ih (fun x' hx' => h x' (List.mem_cons_of_mem x hx'))
      exact ⟨y :: ys, .cons hy hys⟩

/-- A partner belongs to an element. -/
theorem exists_of_forall₂ {α β : Type} {R : α → β → Prop} {xs : List α} {ys : List β} (h : List.Forall₂ R xs ys)
    {y : β} (hy : y ∈ ys) : ∃ x ∈ xs, R x y := by
  induction h with
  | nil => exact absurd hy List.not_mem_nil
  | @cons x y' xs ys hxy _ ih =>
      rcases List.mem_cons.mp hy with rfl | hy
      · exact ⟨x, List.mem_cons_self, hxy⟩
      · obtain ⟨x', hx', hR⟩ := ih hy
        exact ⟨x', List.mem_cons_of_mem x hx', hR⟩

/-- There are such messages in every reachable state. -/
theorem exists_handedOver {id : CommId} {as : List (System.Act B)} {s : System B}
    (h : Machine.run (System.step conf) (System.init id) as = some s) : ∃ ms, HandedOver conf as s.comm ms :=
  exists_forall₂ (fun p hp => System.given_run h p ((System.accounted h).handed p hp))

/-- The buffers that were handed over are the frames of these messages. -/
theorem HandedOver.outBuffers {factory : FreshFactory B} (hconf : conf.Binary factory) {past : List (System.Act B)}
    {c : Comm B} {ms : List (BinMessage B)} (h : HandedOver conf past c ms) :
    c.handed.map PrepearedMessage.outBuffer = (ms.map BinMessage.frame).map (· ++ [binMessageEnd]) := by
  unfold HandedOver at h
  generalize c.handed = ps at h
  induction h with
  | nil => rfl
  | @cons p m ps ms hpm _ ih =>
      rw [List.map_cons, List.map_cons, List.map_cons, ih, (hpm.1.outBuffer_eq hconf).1]

theorem HandedOver.fits {factory : FreshFactory B} (hconf : conf.Binary factory) {past : List (System.Act B)}
    {c : Comm B} {ms : List (BinMessage B)} (h : HandedOver conf past c ms) :
    ∀ m ∈ ms, m.headLen ≤ 255 ∧ m.layout.length ≤ B.maxSize := by
  intro m hm
  obtain ⟨p, -, henc, -⟩ := exists_of_forall₂ h hm
  exact (henc.outBuffer_eq hconf).2

/-- Frames are what stands before their end markers. -/
theorem exists_map_of_isFrame {raws : List Str} (h : ∀ raw ∈ raws, IsFrame raw) :
    ∃ fs : List Str, raws = fs.map (· ++ [binMessageEnd]) ∧ ∀ f ∈ fs, binMessageEnd ∉ f := by
  induction raws with
  | nil => exact ⟨[], rfl, fun f hf => absurd hf List.not_mem_nil⟩
  | cons raw raws ih =>
      obtain ⟨frame, hraw, hframe⟩ := h raw List.mem_cons_self
      obtain ⟨fs, hfs, hopen⟩ := ih (fun r hr => h r (List.mem_cons_of_mem raw hr))
      refine ⟨frame :: fs, by rw [hraw, hfs]; rfl, fun f hf => ?_⟩
      rcases List.mem_cons.mp hf with rfl | hf
      · exact hframe
      · exact hopen f hf

namespace Link

variable {conf : Side → Config B} {factory : Side → FreshFactory B} {ids : Side → CommId} {as : List (Act B)}
  {l : Link B}

/-- The frames one end took out of its buffer. -/
def frames (conf : Side → Config B) (ids : Side → CommId) (side : Side) (as : List (Act B)) : List Str :=
  System.takenFrames (conf side) (ids side) (trace conf ids side as)

/-- What came in and what the socket of the other end has still to write are what was handed to that socket. -/
theorem received_le_sent {side : Side}
    (hok : Machine.Guarded (step conf) (At side.peer System.WritesApart) (init ids) as)
    (hrun : Machine.run (step conf) (init ids) as = some l) :
    System.received (trace conf ids side as)
      <+: ((l.ends side.peer).comm.handed.map PrepearedMessage.outBuffer).flatten := by
  rw [← System.stream_flow (guarded_ends hok hrun) (ends_run side.peer hrun), (coupled_run side hrun).given]
  exact (List.take_prefix _ _).trans (List.prefix_append _ _)

/-- The frames taken at one end are the first of those handed over at the other. -/
theorem frames_eq_take {side : Side} (hconf : ∀ side, (conf side).Binary (factory side))
    (hok : Machine.Guarded (step conf) (At side.peer System.WritesApart) (init ids) as)
    (hrun : Machine.run (step conf) (init ids) as = some l) {ms : List (BinMessage B)}
    (hms : HandedOver (conf side.peer) (trace conf ids side.peer as) (l.ends side.peer).comm ms) :
    frames conf ids side as
      = (ms.take (frames conf ids side as).length).map (fun m => m.frame ++ [binMessageEnd]) := by
  obtain ⟨hreceived, hframes⟩ := System.received_eq (hconf side).decoder (ends_run side hrun)
  obtain ⟨fs, hfs, hopen⟩ := exists_map_of_isFrame hframes
  have hprefix : (fs.map (· ++ [binMessageEnd])).flatten
      <+: ((ms.map BinMessage.frame).map (· ++ [binMessageEnd])).flatten := by
    rw [← hfs, ← hms.outBuffers (hconf side.peer)]
    refine List.IsPrefix.trans ?_ (received_le_sent hok hrun)
    rw [hreceived]
    exact List.prefix_append _ _
  have hfirst : fs <+: ms.map BinMessage.frame := Delimited.prefix_of_flatten hopen (fun f hf => by
    obtain ⟨m, -, rfl⟩ := List.mem_map.mp hf
    exact binMessageEnd_notMem_stuff m.layout) hprefix
  have hlen : (frames conf ids side as).length = fs.length := by
    unfold frames
    rw [hfs, List.length_map]
  rw [hlen]
  unfold frames
  rw [hfs, List.prefix_iff_eq_take.mp hfirst, List.length_take, ← List.map_take, List.map_map]
  have hmin : min fs.length (ms.map BinMessage.frame).length = fs.length := Nat.min_eq_left hfirst.length_le
  rw [hmin]
  rfl

end Link

end Unicomm
