import Unicomm.Comm.Delivery

/-!
# `Comm.EndToEnd` — what one end sends, the other end gets

The guarantees of the library as its two users see them. `delivered_in_order`: at any moment the messages decoded at
one end are the first of those the other end handed to its socket, and the handlers get some of these, in order,
each once. `delivered_at_rest`: once nothing is under way, they are all that was sent. `reply_caused`: no reply
reaches a handler unless the other end's handler was given the request and answered it.
-/

namespace Unicomm

variable {B : Build}

/-- **A delivered reply was asked for**: its identifier was registered before. -/
theorem Comm.Tracked.reply_registered {c : Comm B} (h : c.Tracked) {m : BinMessage B} (hm : m ∈ c.arrivals)
    (hrid : m.ridExists = true) : .registered m.rid ∈ c.history := by
  obtain ⟨e, he, harrived⟩ := List.mem_filterMap.mp hm
  have hevent : e = .messageArrived m := by
    cases e <;> first | (cases harrived; rfl) | cases harrived
  subst hevent
  obtain ⟨before, after, hsplit⟩ := List.append_of_mem he
  have hmark : (Event.messageArrived m).mark? m.rid = some .settle := by
    simp [Event.mark?, Event.isRegistrationOf, Event.settles, Event.isReplyTo, hrid]
  have hrun := h m.rid
  rw [marks, hsplit, List.filterMap_append, List.filterMap_cons_some hmark] at hrun
  obtain ⟨r, hr, hregister⟩ := List.mem_filterMap.mp (Pending.register_of_settle hrun)
  have hreg : r.isRegistrationOf m.rid = true := by
    unfold Event.mark? at hregister
    split at hregister
    · next hreg => exact hreg
    · split at hregister <;> cases hregister
  have hr' : r = .registered m.rid := by
    cases r <;> simp [Event.isRegistrationOf] at hreg
    rw [hreg]
  rw [hsplit, ← hr']
  exact List.mem_append_left _ hr

namespace Link

variable {conf : Side → Config B} {factory : Side → FreshFactory B} {ids : Side → CommId} {as : List (Act B)}
  {l : Link B}

/-! ## A run

The client sends request `a`, the server's handler answers it with `b`, and the client's handler is given the answer.
-/

/-- One end takes so many stages in which nothing special happens. -/
def stages (side : Side) (n : Nat) : List (Act .lp64) := List.replicate n (.own side (.stage .plain))

/-- The connection of one end is announced and made. -/
def connects (side : Side) : List (Act .lp64) :=
  [.own side (.env .connectSuccess), .own side .enter] ++ stages side 1

/-- The message arrived handler sets the reply `b`. -/
def answering : Choice .lp64 := ⟨0, false, .session, fun _ => none, fun _ => some ⟨[0x62], 0, 0, 0, [7]⟩⟩

/-- The request goes out, its write completes, and the next iteration reports it as sent. -/
def asks : List (Act .lp64) :=
  connects .client ++ [.own .client (.env (.send ⟨[0x61], 0, 0, 0, []⟩))] ++ stages .client 8
    ++ [.own .client (.env (.writeSome 0 13)), .own .client (.env (.writeDone 0)), .own .client .enter]
    ++ stages .client 7

/-- It arrives in two pieces and is answered. -/
def answers : List (Act .lp64) :=
  connects .server ++ stages .server 6
    ++ [.deliver .server 5, .own .server (.env .readUpdated), .deliver .server 8, .own .server (.env .readUpdated),
      .own .server .enter]
    ++ stages .server 3 ++ [.own .server (.stage answering)] ++ stages .server 9

/-- The answer arrives. -/
def isAnswered : List (Act .lp64) :=
  [.own .server (.env (.writeSome 0 22)), .deliver .client 22, .own .client (.env .readUpdated), .own .client .enter]
    ++ stages .client 6

/-- Both ends make plain messages, number them and expect replies. -/
theorem asking_binary (side : Side) : ((fun _ => Config.asking) side : Config .lp64).Binary FreshFactory.plain :=
  ⟨rfl, rfl⟩

/-! ## In order -/

/-- What arrives at one end was handed over at the other. -/
theorem arrivals_sublist {side : Side} (hconf : ∀ side, (conf side).Binary (factory side))
    (hok : Machine.Guarded (step conf) (At side.peer System.WritesApart) (init ids) as)
    (hrun : Machine.run (step conf) (init ids) as = some l) {ms : List (BinMessage B)}
    (hms : HandedOver (conf side.peer) (trace conf ids side.peer as) (l.ends side.peer).comm ms) :
    (conf side).messageDecoder.decodedOf (frames conf ids side as)
        = (shortHeaded (ms.take (frames conf ids side as).length)).map (factory side).received
      ∧ (l.ends side).comm.arrivals.Sublist
          ((shortHeaded (ms.take (frames conf ids side as).length)).map (factory side).received) := by
  have hdecoded : (conf side).messageDecoder.decodedOf (frames conf ids side as)
      = (shortHeaded (ms.take (frames conf ids side as).length)).map (factory side).received := by
    conv_lhs => rw [frames_eq_take hconf hok hrun hms]
    exact decodedOf_frames (hconf side) (fun m hm => hms.fits (hconf side.peer) m (List.mem_of_mem_take hm))
  refine ⟨hdecoded, ?_⟩
  rw [← hdecoded]
  exact System.arrivals_sublist (ends_run side hrun)

/-- **What one end sends arrives at the other, in order, at most once, and nothing else arrives.** In every run of
    two communicators with the binary format over one connection, if the sender's socket transfers from its oldest
    write and starts none under an identifier that still has a buffer: there are messages, each given to the sender by
    a `send` or as the reply of a handler, that are in turn the ones its socket was handed; what the receiver has
    decoded are the first of these whose headers are at most 127 bytes, with name, identifiers and tail as sent; and
    its handler was called with some of them, in order. -/
theorem delivered_in_order (conf : Side → Config B) (factory : Side → FreshFactory B)
    (hconf : ∀ side, (conf side).Binary (factory side)) (ids : Side → CommId) (as : List (Act B)) (l : Link B)
    (side : Side) (hok : Machine.Guarded (step conf) (At side.peer System.WritesApart) (init ids) as)
    (hrun : Machine.run (step conf) (init ids) as = some l) :
    ∃ ms k, HandedOver (conf side.peer) (trace conf ids side.peer as) (l.ends side.peer).comm ms
      ∧ ((conf side).messageDecoder.decodedOf (frames conf ids side as)).map BinMessage.wire
          = (shortHeaded (ms.take k)).map BinMessage.wire
      ∧ ((l.ends side).comm.arrivals.map BinMessage.wire).Sublist ((shortHeaded (ms.take k)).map BinMessage.wire) := by
  obtain ⟨ms, hms⟩ := exists_handedOver (ends_run side.peer hrun)
  obtain ⟨hdecoded, harrivals⟩ := arrivals_sublist hconf hok hrun hms
  have hwire : ∀ ms : List (BinMessage B),
      (ms.map (factory side).received).map BinMessage.wire = ms.map BinMessage.wire := by
    intro ms
    rw [List.map_map]
    exact List.map_congr_left (fun m _ => (factory side).wire_received m)
  refine ⟨ms, (frames conf ids side as).length, hms, ?_, ?_⟩
  · rw [hdecoded, hwire]
  · have hsub := harrivals.map BinMessage.wire
    rwa [hwire] at hsub

/-- The request reaches the server's handler. -/
theorem delivered_in_order_asks : ∃ l,
    Machine.run (step fun _ => Config.asking) (init fun _ => 1) (asks ++ answers) = some l
      ∧ (l.ends .server).comm.arrivals.map BinMessage.wire = [([0x61], 1, 0, [])]
      ∧ ∃ ms k, HandedOver Config.asking (trace (fun _ => Config.asking) (fun _ => 1) .client (asks ++ answers))
          (l.ends .client).comm ms
        ∧ ((l.ends .server).comm.arrivals.map BinMessage.wire).Sublist
            ((shortHeaded (ms.take k)).map BinMessage.wire) := by
  have hrun : (Machine.run (step fun _ => Config.asking) (init fun _ => 1) (asks ++ answers)).any (fun l =>
      (l.ends .server).comm.arrivals.map BinMessage.wire == [([0x61], 1, 0, [])]) = true := by decide +kernel
  obtain ⟨l, hl, harrived⟩ := (Option.any_eq_true _ _).mp hrun
  obtain ⟨ms, k, hms, -, harrivals⟩ := delivered_in_order (fun _ => Config.asking) (fun _ => FreshFactory.plain)
    asking_binary (fun _ => 1) (asks ++ answers) l .server (by decide +kernel) hl
  exact ⟨l, hl, eq_of_beq harrived, ms, k, hms, harrivals⟩

/-! ## At rest -/

/-- **Nothing is under way** to one end: the other has nothing queued and nothing left to write, all its bytes have
    been delivered, and they have been looked at. -/
structure AtRest (l : Link B) (side : Side) : Prop where
  queue     : (l.ends side.peer).comm.prepearedMQueue = []
  written   : ∀ w ∈ (l.ends side.peer).comm.socket.writes, w.rest = []
  delivered : l.got side = (l.incoming side).length
  handler   : (l.ends side).comm.inReadHandler = false
  looked    : (l.ends side).comm.inBufferUpdated = false

instance (l : Link B) (side : Side) : Decidable (l.AtRest side) :=
  decidable_of_iff ((l.ends side.peer).comm.prepearedMQueue = []
      ∧ (∀ w ∈ (l.ends side.peer).comm.socket.writes, w.rest = []) ∧ l.got side = (l.incoming side).length
      ∧ (l.ends side).comm.inReadHandler = false ∧ (l.ends side).comm.inBufferUpdated = false)
    ⟨fun ⟨h₁, h₂, h₃, h₄, h₅⟩ => ⟨h₁, h₂, h₃, h₄, h₅⟩, fun ⟨h₁, h₂, h₃, h₄, h₅⟩ => ⟨h₁, h₂, h₃, h₄, h₅⟩⟩

/-- At rest the buffer holds no complete frame. -/
theorem AtRest.notMem {side : Side} (hrest : l.AtRest side) (hconf : ∀ side, (conf side).Binary (factory side))
    (hone : Machine.Guarded (step conf) (At side System.OneThread) (init ids) as)
    (hrun : Machine.run (step conf) (init ids) as = some l) : binMessageEnd ∉ (l.ends side).comm.inBuffer := by
  intro hmem
  have hfinds : ∀ {buffer : Str}, (conf side).messageDecoder.Finds buffer ↔ binMessageEnd ∈ buffer := by
    intro buffer
    rw [(hconf side).decoder]
    exact finds_iff _ buffer
  have hempty : ¬ (conf side).messageDecoder.Finds [] := fun h => List.not_mem_nil (hfinds.mp h)
  have hflag : (l.ends side).FlagInv (conf side) := Machine.run_guarded_invariant (System.FlagInv (conf side))
    (fun _ _ _ hi hok hs => hi.step hok.keepsFlag hs) _ _ _ (System.FlagInv.init hempty (ids side))
    (guarded_ends hone hrun) (ends_run side hrun)
  rcases hflag.announced (hfinds.mpr hmem) with hflag | hreading
  · rw [hrest.looked] at hflag
    cases hflag
  · rw [hrest.handler] at hreading
    cases hreading

/-- At rest everything that was handed over has come in. -/
theorem AtRest.received_eq {side : Side} (hrest : l.AtRest side)
    (hok : Machine.Guarded (step conf) (At side.peer System.WritesApart) (init ids) as)
    (hrun : Machine.run (step conf) (init ids) as = some l) :
    System.received (trace conf ids side as)
      = ((l.ends side.peer).comm.handed.map PrepearedMessage.outBuffer).flatten := by
  have hrests : ((l.ends side.peer).comm.socket.writes.map AsyncWrite.rest).flatten = [] :=
    List.flatten_eq_nil_iff.mpr (fun r hr => by
      obtain ⟨w, hw, rfl⟩ := List.mem_map.mp hr
      exact hrest.written w hw)
  have hflow := System.stream_flow (guarded_ends hok hrun) (ends_run side.peer hrun)
  rw [hrests, List.append_nil] at hflow
  rw [(coupled_run side hrun).given, hrest.delivered, incoming, List.take_length, hflow]

/-- **Nothing that was sent is lost.** When nothing is under way to one end any more, that end has decoded every
    message the other end's communicator accepted, apart from those with a header of more than 127 bytes: what was
    handed to the socket is what was pushed, each message once and in order within its priority, all of it was
    decoded, and the receiving buffer is empty. The run must keep to the conditions under which the queue, the
    socket and the reading flag work. -/
theorem delivered_at_rest (conf : Side → Config B) (factory : Side → FreshFactory B)
    (hconf : ∀ side, (conf side).Binary (factory side)) (ids : Side → CommId) (as : List (Act B)) (l : Link B)
    (side : Side) (hok : Machine.Guarded (step conf) (At side.peer System.WritesApart) (init ids) as)
    (hpush : Machine.Guarded (step conf) (At side.peer (System.NoOvertaking (conf side.peer))) (init ids) as)
    (hone : Machine.Guarded (step conf) (At side System.OneThread) (init ids) as)
    (hrun : Machine.run (step conf) (init ids) as = some l) (hrest : l.AtRest side) :
    (∃ ms, HandedOver (conf side.peer) (trace conf ids side.peer as) (l.ends side.peer).comm ms
        ∧ ((conf side).messageDecoder.decodedOf (frames conf ids side as)).map BinMessage.wire
            = (shortHeaded ms).map BinMessage.wire)
      ∧ (l.ends side.peer).comm.handed.Perm (l.ends side.peer).comm.pushes
      ∧ (∀ p, (l.ends side.peer).comm.handed.filter (fun m => m.priority = p)
          = (l.ends side.peer).comm.pushes.filter (fun m => m.priority = p))
      ∧ (l.ends side).comm.inBuffer = [] := by
  obtain ⟨ms, hms⟩ := exists_handedOver (ends_run side.peer hrun)
  obtain ⟨hreceived, hframes⟩ := System.received_eq (hconf side).decoder (ends_run side hrun)
  obtain ⟨fs, hfs, hopen⟩ := exists_map_of_isFrame hframes
  -- all bytes have come, and frames without the delimiter are determined by their concatenation
  have hall : fs = ms.map BinMessage.frame ∧ (l.ends side).comm.inBuffer = [] := by
    refine Delimited.eq_of_flatten hopen (fun f hf => ?_) (hrest.notMem hconf hone hrun) ?_
    · obtain ⟨m, -, rfl⟩ := List.mem_map.mp hf
      exact binMessageEnd_notMem_stuff m.layout
    · rw [← hfs, ← hms.outBuffers (hconf side.peer), ← hreceived]
      exact hrest.received_eq hok hrun
  -- on the side of the sender the queue is empty, so what was pushed has left it
  have hdelivering : (l.ends side.peer).Delivering := Machine.run_guarded_invariant System.Delivering
    (fun _ _ _ hi hok hstep => hi.step hok hstep) _ _ _
    ⟨.init (ids side.peer), PriorityQueue.Conserved.empty, fun m h => by cases h⟩
    (guarded_ends hpush hrun) (ends_run side.peer hrun)
  have hperm := hdelivering.delivered.perm
  rw [hrest.queue, List.append_nil] at hperm
  refine ⟨⟨ms, hms, ?_⟩, hperm, fun p => ?_, hall.2⟩
  · have htaken : frames conf ids side as = ms.map (fun m => m.frame ++ [binMessageEnd]) := by
      unfold frames
      rw [hfs, hall.1, List.map_map]
      rfl
    rw [htaken, decodedOf_frames (hconf side) (hms.fits (hconf side.peer)), List.map_map]
    exact List.map_congr_left (fun m _ => (factory side).wire_received m)
  · have horder := hdelivering.delivered.order p
    rwa [hrest.queue, List.filter_nil, List.append_nil] at horder

/-- Once the request has been answered, nothing is under way to the server. -/
theorem delivered_at_rest_asks : ∃ l,
    Machine.run (step fun _ => Config.asking) (init fun _ => 1) (asks ++ answers) = some l
      ∧ (l.ends .client).comm.pushes ≠ []
      ∧ (l.ends .client).comm.handed.Perm (l.ends .client).comm.pushes
      ∧ (l.ends .server).comm.inBuffer = [] := by
  have hrun : (Machine.run (step fun _ => Config.asking) (init fun _ => 1) (asks ++ answers)).any (fun l =>
      decide ((l.ends .client).comm.pushes ≠ [] ∧ l.AtRest .server)) = true := by decide +kernel
  obtain ⟨l, hl, hrest⟩ := (Option.any_eq_true _ _).mp hrun
  obtain ⟨hsome, hrest⟩ := of_decide_eq_true hrest
  have hall := delivered_at_rest (fun _ => Config.asking) (fun _ => FreshFactory.plain) asking_binary (fun _ => 1)
    (asks ++ answers) l .server (by decide +kernel) (by decide +kernel) (by decide +kernel) hl hrest
  exact ⟨l, hl, hsome, hall.2.1, hall.2.2.2⟩

/-! ## Replies -/

/-- A message that arrived was handed over at the other end. -/
theorem exists_handed {side : Side} (hconf : ∀ side, (conf side).Binary (factory side))
    (hok : Machine.Guarded (step conf) (At side.peer System.WritesApart) (init ids) as)
    (hrun : Machine.run (step conf) (init ids) as = some l) {m : BinMessage B}
    (hm : m ∈ (l.ends side).comm.arrivals) :
    ∃ p ∈ (l.ends side.peer).comm.handed, ∃ sent : BinMessage B, p.Encodes (conf side.peer) sent
      ∧ Origin (trace conf ids side.peer as) (l.ends side.peer).comm.arrivals sent
      ∧ sent.wire = m.wire := by
  obtain ⟨ms, hms⟩ := exists_handedOver (ends_run side.peer hrun)
  have hmem := (arrivals_sublist hconf hok hrun hms).2.subset hm
  obtain ⟨sent, hsent, rfl⟩ := List.mem_map.mp hmem
  obtain ⟨p, hp, henc, horigin⟩ := exists_of_forall₂ hms (List.mem_of_mem_take (List.mem_of_mem_filter hsent))
  exact ⟨p, hp, sent, henc, horigin, ((factory side).wire_received sent).symm⟩

/-- **A reply is caused by its request.** Where applications leave it to the library to mark replies, every reply a
    handler is given is what the other end's handler set as the answer to a message it was given; that message has
    the name and the identifier of a request this end's socket was handed, and the request was registered. -/
theorem reply_caused (conf : Side → Config B) (factory : Side → FreshFactory B)
    (hconf : ∀ side, (conf side).Binary (factory side)) (ids : Side → CommId) (as : List (Act B)) (l : Link B)
    (hok : ∀ side, Machine.Guarded (step conf) (At side System.WritesApart) (init ids) as)
    (hrun : Machine.run (step conf) (init ids) as = some l)
    (happ : ∀ side, ∀ a ∈ trace conf ids side as, ∀ given ∈ a.send?, given.ridExists = false)
    (side : Side) (m : BinMessage B) (hm : m ∈ (l.ends side).comm.arrivals) (hrid : m.ridExists = true) :
    ∃ request ∈ (l.ends side).comm.handed, ∃ asked ∈ (l.ends side.peer).comm.arrivals,
      request.id = m.rid ∧ .registered m.rid ∈ (l.ends side).comm.history
        ∧ asked.id = m.rid ∧ asked.name = request.name
        ∧ ∃ ch offered outm, .stage ch ∈ trace conf ids side.peer as ∧ ch.reply offered = some outm
            ∧ m.name = outm.name ∧ m.tail = outm.tail := by
  obtain ⟨-, -, sent, -, horigin, hwire⟩ := exists_handed hconf (hok side.peer) hrun hm
  simp only [BinMessage.wire, Prod.mk.injEq] at hwire
  obtain ⟨hname, -, hsentRid, htail⟩ := hwire
  cases horigin with
  | sent hsend hfilled =>
      -- an application would have marked it as a reply
      have hno := happ side.peer _ hsend _ rfl
      rw [BinMessage.ridExists, ← hfilled.rid, hsentRid] at hno
      rw [BinMessage.ridExists, hno] at hrid
      cases hrid
  | @replied ch offered outm asked hstage hreply hasked hfilled =>
      have hmade : m.rid = asked.id := hsentRid.symm.trans hfilled.rid
      have hokPeer : Machine.Guarded (step conf) (At side.peer.peer System.WritesApart) (init ids) as := hok _
      obtain ⟨p, hp, given, henc, -, hgiven⟩ := exists_handed hconf hokPeer hrun hasked
      rw [Side.peer_peer] at hp
      simp only [BinMessage.wire, Prod.mk.injEq] at hgiven
      have htracked := (System.identity_run (hconf side).encoder (ends_run side hrun)).2.2
      refine ⟨p, hp, asked, hasked, ?_, htracked.reply_registered hm hrid, hmade.symm, ?_, ch, offered, outm,
        hstage, hreply, ?_, ?_⟩
      · rw [henc.id, hgiven.2.1, hmade]
      · rw [henc.name, hgiven.1]
      · rw [← hname, hfilled.name]
      · rw [← htail, hfilled.tail]

/-- The answer `b` reaches the client's handler, and its identifier is the one of request `a`. -/
theorem reply_caused_isAnswered : ∃ l,
    Machine.run (step fun _ => Config.asking) (init fun _ => 1) (asks ++ answers ++ isAnswered) = some l
      ∧ ∃ request ∈ (l.ends .client).comm.handed, ∃ asked ∈ (l.ends .server).comm.arrivals,
        request.id = 1 ∧ .registered 1 ∈ (l.ends .client).comm.history ∧ asked.id = 1 ∧ asked.name = request.name := by
  have hrun : (Machine.run (step fun _ => Config.asking) (init fun _ => 1) (asks ++ answers ++ isAnswered)).any
      (fun l => decide (⟨[0x62], 1, 1, 0, [7]⟩ ∈ (l.ends .client).comm.arrivals)) = true := by decide +kernel
  obtain ⟨l, hl, harrived⟩ := (Option.any_eq_true _ _).mp hrun
  obtain ⟨request, hrequest, asked, hasked, hid, hreg, haskedId, hname, -⟩ :=
    reply_caused (fun _ => Config.asking) (fun _ => FreshFactory.plain) asking_binary (fun _ => 1)
      (asks ++ answers ++ isAnswered) l (fun side => by cases side <;> decide +kernel) hl
      (fun side => by cases side <;> decide +kernel) .client ⟨[0x62], 1, 1, 0, [7]⟩ (of_decide_eq_true harrived) rfl
  exact ⟨l, hl, request, hrequest, asked, hasked, hid, hreg, haskedId, hname⟩

end Link

end Unicomm
