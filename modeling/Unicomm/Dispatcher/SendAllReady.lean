import Unicomm.Dispatcher.MessageIds
import Unicomm.Dispatcher.SendAll

/-!
# `Dispatcher.SendAllReady` — `send_all` while connections are being set up

`insert_comm` puts a communicator into the container before there is a session; `process_connect` creates the
session later, with SSL when the peer has finished its handshake. `send_all` goes over **everything** in the
container, and `prepare_to_write` throws where it finds no session. That ends the call: the communicators behind
get nothing, and the identifiers of those before are lost.

So `send_all` is right in exactly those states whose communicators all have their session (`sendAll_ready_iff`).
-/

namespace Unicomm

variable {B : Build} {conf : Config B} {m : BinMessage B}

/-- The message serializes and encodes without error, whatever identifier and priority a send gives it. -/
def Config.Encodes (conf : Config B) (m : BinMessage B) : Prop :=
  ∀ id priority, ∃ out, conf.messageEncoder.performEncode { m with id, priority } = .ok out

/-- **What the binary format encodes**: every message short enough for its header and for a string. -/
theorem encodes_of_length (hconf : conf.messageEncoder = binMessageEncoder)
    (hname : binHeaderMinLen + m.name.length + 2 * B.sizeofULong ≤ 255)
    (htail : 2 * (255 + m.tail.length) + 1 ≤ B.maxSize) : conf.Encodes m := by
  intro id priority
  have hhead : ({ m with id, priority } : BinMessage B).headLen ≤ 255 := by
    have hone : ∀ b : Bool, b.toNat * B.sizeofULong ≤ B.sizeofULong := by
      intro b
      cases b <;> simp
    refine Nat.le_trans ?_ hname
    have hid := hone ({ m with id, priority } : BinMessage B).idExists
    have hrid := hone ({ m with id, priority } : BinMessage B).ridExists
    change binHeaderMinLen + m.name.length + _ * _ + _ * _ ≤ _
    omega
  rw [hconf]
  refine ⟨_, performEncode_of_fits hhead ?_⟩
  rw [BinMessage.length_layout]
  change 2 * (_ + m.tail.length) + 1 ≤ _
  omega

namespace Comm

/-- **A send of such a message returns** if and only if there is a session. -/
theorem prepareToWrite_ok_iff (henc : conf.Encodes m) (c : Comm B) :
    (∃ mid, (c.prepareToWrite conf m).result = .ok mid) ↔ c.userSession = true := by
  obtain ⟨out, hout⟩ := henc (stamped conf m c).id (stamped conf m c).priority
  have hok : conf.messageEncoder.performEncode (stamped conf m c) = .ok out := hout
  rcases prepareToWrite_cases conf m c with ⟨e, hc, hs | herr⟩ | ⟨_, hs, -, hc⟩ <;> rw [hc]
  · exact iff_of_false (fun ⟨_, h⟩ => by cases h) (by rw [hs]; decide)
  · rw [hok] at herr
    cases herr
  · exact iff_of_true ⟨_, rfl⟩ hs

end Comm

/-! ## When a pass throws -/

/-- **A pass returns** if and only if everything it goes over has a session. -/
theorem messageSender_thrown_iff {ids : List CommId} (henc : conf.Encodes m) {sended : FullMessageidMap B}
    {comms : CommId → Comm B} :
    (messageSender conf ids sended m comms).thrown = none ↔ ∀ id ∈ ids, (comms id).userSession = true := by
  induction ids generalizing sended m comms with
  | nil => exact iff_of_true rfl (fun _ h => absurd h List.not_mem_nil)
  | cons k ids ih =>
      have hready := Comm.prepareToWrite_ok_iff henc (comms k)
      rw [messageSender, List.forall_mem_cons, ← hready]
      cases hr : ((comms k).prepareToWrite conf m).result with
      | error e => exact iff_of_false (fun h => by cases h) (fun h => by cases h.1.choose_spec)
      | ok mid =>
          have hstamped : conf.Encodes ((comms k).prepareToWrite conf m).message := by
            rw [Comm.prepareToWrite_message]
            exact henc
          have hsame : ∀ id, (Function.update comms k ((comms k).prepareToWrite conf m).comm id).userSession
              = (comms id).userSession := by
            intro id
            rw [Function.update_apply]
            split
            · next hid => rw [hid, Comm.prepareToWrite_userSession]
            · rfl
          simp only [ih hstamped, hsame]
          exact ⟨fun h => ⟨⟨mid, rfl⟩, h⟩, And.right⟩

/-! ## The whole call -/

namespace Dispatcher

/-- **`send_all` is right**: it returns; a communicator of the container that has a session got one copy of the
    message and is in the returned map under the identifier of the copy, and nothing happened to any other
    communicator. -/
def SendsToReady (conf : Config B) (m : BinMessage B) (d : Dispatcher B) : Prop :=
  (d.sendAll conf m).thrown = none ∧ ∀ id,
    if d.clients.clientExists id ∧ (d.comms id).userSession = true then
      ∃ x, ((d.sendAll conf m).comms id).pushes = (d.comms id).pushes ++ [x] ∧ x.CopyOf conf m
        ∧ (d.sendAll conf m).sended[id]? = some x.id
    else
      (d.sendAll conf m).comms id = d.comms id ∧ (d.sendAll conf m).sended[id]? = none

/-- **A call returns** if and only if everything in the container has a session. -/
theorem sendAll_thrown_iff (henc : conf.Encodes m) (d : Dispatcher B) :
    (d.sendAll conf m).thrown = none ↔ ∀ id, d.clients.clientExists id → (d.comms id).userSession = true := by
  have hmem : ∀ id, id ∈ d.order ↔ d.clients.clientExists id := by
    intro id
    rw [order, List.mem_append, Std.ExtTreeSet.mem_toList, Std.ExtTreeSet.mem_toList]
    rfl
  rw [(sendAll_eq m d).2, messageSender_thrown_iff henc]
  simp only [hmem]

/-- **What a call that returns has done**, the two collections being disjoint. -/
theorem sendAll_returned {d : Dispatcher B} (hdisjoint : ∀ {id}, id ∈ d.clients.clients → id ∉ d.clients.excluded)
    (hret : (d.sendAll conf m).thrown = none) (id : CommId) :
    if d.clients.clientExists id then
      ∃ x, ((d.sendAll conf m).comms id).pushes = (d.comms id).pushes ++ [x] ∧ x.CopyOf conf m
        ∧ (d.sendAll conf m).sended[id]? = some x.id
    else
      (d.sendAll conf m).comms id = d.comms id ∧ (d.sendAll conf m).sended[id]? = none := by
  rw [sendAll] at hret ⊢
  cases hp : (sendAllPass conf d.clients.clients m d.comms).thrown with
  | some e =>
      simp only [hp] at hret
      cases hret
  | none =>
      simp only [hp] at hret ⊢
      have hfirst := sendAllPass_returned hp id
      have hsecond := sendAllPass_returned hret id
      obtain ⟨mid, priority, hm⟩ := @messageSender_message B conf d.clients.clients.toList ∅ m d.comms
      have hcopy : ∀ x : PrepearedMessage B,
          x.CopyOf conf (sendAllPass conf d.clients.clients m d.comms).message → x.CopyOf conf m := by
        intro x hx
        rw [sendAllPass, hm] at hx
        exact hx
      by_cases hclients : id ∈ d.clients.clients
      · -- the first pass queues it, the second one passes it over
        rw [if_pos hclients] at hfirst
        rw [if_neg (hdisjoint hclients)] at hsecond
        rw [if_pos (.inl hclients)]
        obtain ⟨x, hx, hxcopy, hxid⟩ := hfirst
        exact ⟨x, by rw [hsecond.1, hx], hxcopy, by rw [getElem?_mergeSended, hxid, Option.some_or]⟩
      rw [if_neg hclients] at hfirst
      by_cases hexcluded : id ∈ d.clients.excluded
      · -- the other way round, with the message object as the first pass left it
        rw [if_pos hexcluded] at hsecond
        rw [if_pos (.inr hexcluded)]
        obtain ⟨x, hx, hxcopy, hxid⟩ := hsecond
        exact ⟨x, by rw [hx, hfirst.1], hcopy x hxcopy, by rw [getElem?_mergeSended, hfirst.2, Option.none_or, hxid]⟩
      · rw [if_neg hexcluded] at hsecond
        rw [if_neg (fun hin => hin.elim hclients hexcluded)]
        refine ⟨hsecond.1.trans hfirst.1, ?_⟩
        rw [getElem?_mergeSended, hfirst.2, hsecond.2, Option.none_or]

end Dispatcher

namespace Running

variable {N M : Nat}

/-- **The two passes of a call, one right after the other, are `send_all`**; a call that throws ends early. -/
theorem sendAll_passes {s : Running B N M} {a : Fin M} (ha : s.agents a = .idle) (m : BinMessage B) :
    ∃ acts s', (acts = [.sendAllPrimary a m] ∨ acts = [.sendAllPrimary a m, .sendAllExcluded a])
      ∧ Machine.run (step conf) s acts = some s'
      ∧ s'.comms = (s.toDispatcher.sendAll conf m).comms
      ∧ s'.agents a = afterSend (s.toDispatcher.sendAll conf m).thrown
          (.kicking (s.toDispatcher.sendAll conf m).sended .test) := by
  obtain ⟨s₁, hprimary, hclients, hcomms, hagent⟩ : ∃ s₁, step conf s (.sendAllPrimary a m) = some s₁
      ∧ s₁.clients = s.clients ∧ s₁.comms = (sendAllPass conf s.clients.clients m s.comms).comms
      ∧ s₁.agents a = afterSend (sendAllPass conf s.clients.clients m s.comms).thrown
          (.sendingAll (sendAllPass conf s.clients.clients m s.comms).message
            (sendAllPass conf s.clients.clients m s.comms).sended) := by
    rw [step, ha]
    exact ⟨_, rfl, rfl, rfl, Function.update_self ..⟩
  rw [Dispatcher.sendAll]
  cases hp : (sendAllPass conf s.clients.clients m s.comms).thrown with
  | some e =>
      -- the exception leaves the call, which makes no second pass
      rw [hp] at hagent
      simp only [hp]
      exact ⟨_, s₁, .inl rfl, Machine.run_cons_eq_some.mpr ⟨s₁, hprimary, rfl⟩, hcomms, hagent⟩
  | none =>
      rw [hp] at hagent
      simp only
      obtain ⟨s', hexcluded, hcomms', hagent'⟩ : ∃ s', step conf s₁ (.sendAllExcluded a) = some s'
          ∧ s'.comms = (sendAllPass conf s₁.clients.excluded _ s₁.comms).comms
          ∧ s'.agents a = afterSend (sendAllPass conf s₁.clients.excluded _ s₁.comms).thrown
              (.kicking (mergeSended _ (sendAllPass conf s₁.clients.excluded _ s₁.comms).sended) .test) := by
        rw [step, hagent]
        exact ⟨_, rfl, rfl, Function.update_self ..⟩
      rw [hclients, hcomms] at hcomms' hagent'
      exact ⟨_, s', .inr rfl, Machine.run_cons_eq_some.mpr ⟨s₁, hprimary,
        Machine.run_cons_eq_some.mpr ⟨s', hexcluded, rfl⟩⟩, hcomms', hagent'⟩

/-- **`send_all` is right** in a reachable state if and only if every communicator in the container has its
    session. -/
theorem sendAll_ready_iff (conf : Config B) (as : List (Act B N M)) (s : Running B N M) (m : BinMessage B)
    (hrun : Machine.run (step conf) Running.init as = some s) (henc : conf.Encodes m) :
    s.toDispatcher.SendsToReady conf m ↔ ∀ id, s.clients.clientExists id → (s.comms id).userSession = true := by
  have hex : s.Exclusive := Exclusive.run hrun
  have hthrown := s.toDispatcher.sendAll_thrown_iff henc
  refine ⟨fun h => hthrown.mp h.1, fun hready => ?_⟩
  have hret := hthrown.mpr hready
  refine ⟨hret, fun id => ?_⟩
  have hdone := Dispatcher.sendAll_returned (fun hid => hex.not_excluded hid) hret id
  by_cases hin : s.clients.clientExists id
  · rw [if_pos hin] at hdone
    rw [if_pos ⟨hin, hready id hin⟩]
    exact hdone
  · rw [if_neg hin] at hdone
    rw [if_neg (fun h => hin h.1)]
    exact hdone

theorem toAll_encodes : Config.plain.Encodes toAll :=
  encodes_of_length rfl (by decide) (by decide)

/-- The guarantee for one connection that has its session. -/
theorem sendAll_ready_iff_connectedOne : ∃ s : Running .lp64 1 1,
    Machine.run (step Config.plain) Running.init (connectedOne 0 0) = some s
      ∧ s.clients.clientExists 0 ∧ (s.comms 0).userSession = true
      ∧ (s.toDispatcher.SendsToReady .plain toAll
          ↔ ∀ id, s.clients.clientExists id → (s.comms id).userSession = true) :=
  ⟨_, rfl, by decide +kernel, rfl, sendAll_ready_iff .plain (connectedOne 0 0) _ toAll rfl toAll_encodes⟩

/-- **A connection that is being set up breaks `send_all`**: another one is accepted, and the call throws before
    it comes to the first. -/
theorem sendAll_breaks : ¬ ∀ (as : List (Act .lp64 1 1)) (s : Running .lp64 1 1) (m : BinMessage .lp64),
    Machine.run (step Config.plain) Running.init as = some s → Config.plain.Encodes m →
      s.toDispatcher.SendsToReady .plain m := by
  intro hclaim
  have hreturns := (hclaim (connectedOne 0 0 ++ [.accept 0 1]) _ toAll rfl toAll_encodes).1
  exact absurd hreturns (by decide +kernel)

end Running

end Unicomm
