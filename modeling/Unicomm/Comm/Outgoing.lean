import Unicomm.Comm.System

/-!
# `Comm.Outgoing` — the outgoing queue between a push and the socket

`send` ends in one locked push; the processing thread takes a message with **two** locked halves, a copy of the
front and a pop. The abstract statement is `PriorityQueue.Conserved` over the messages pushed, handed to the
socket and still queued.

Effects push or leave the three alone (`Delivered.effect`), and between the two halves nothing may get in front
of the copied message: a push of a **higher** priority does, and then the pop removes that message instead
(`mtStartWrite_loses`). `outgoing_delivered` is the guarantee for all other runs.
-/

namespace Unicomm

open PriorityQueue

variable {B : Build} {conf : Config B} {ch : Choice B}

namespace Comm

/-- Every message pushed was handed to the socket once or is still queued, in the order of the pushes within
    one priority. -/
abbrev Delivered (c : Comm B) : Prop :=
  Conserved PrepearedMessage.priority c.pushes c.handed c.prepearedMQueue

/-- The same messages pushed, handed over and queued. -/
def SameOutgoing (c c' : Comm B) : Prop :=
  c'.pushes = c.pushes ∧ c'.handed = c.handed ∧ c'.prepearedMQueue = c.prepearedMQueue

theorem Delivered.congr {c c' : Comm B} (h : c.Delivered) (hsame : SameOutgoing c c') : c'.Delivered := by
  obtain ⟨h₁, h₂, h₃⟩ := hsame
  rw [Delivered, h₁, h₂, h₃]
  exact h

/-- Events that neither push nor hand over. -/
theorem sameOutgoing_log {c c' : Comm B} {e : Event B} (hh : c'.history = c.history ++ [e])
    (hq : c'.prepearedMQueue = c.prepearedMQueue) (hp : e.pushed? = none) (hd : e.handed? = none) :
    SameOutgoing c c' :=
  ⟨filterMap_event hh hp, filterMap_event hh hd, hq⟩

theorem sameOutgoing_of_history {c c' : Comm B} (hh : c'.history = c.history)
    (hq : c'.prepearedMQueue = c.prepearedMQueue) : SameOutgoing c c' :=
  ⟨by rw [pushes, pushes, hh], by rw [handed, handed, hh], hq⟩

theorem SameOutgoing.trans {a b c : Comm B} (h₁ : SameOutgoing a b) (h₂ : SameOutgoing b c) :
    SameOutgoing a c :=
  ⟨h₂.1.trans h₁.1, h₂.2.1.trans h₁.2.1, h₂.2.2.trans h₁.2.2⟩

theorem regSent_sameOutgoing (c : Comm B) (it : SentMessageInfo B) (sent : List (SentMessageInfo B)) :
    SameOutgoing c (c.regSent conf ch it sent) := by
  rw [regSent]
  split
  · exact sameOutgoing_log (e := .registered it.mid) rfl rfl rfl rfl
  · exact sameOutgoing_of_history rfl rfl

theorem newMid_sameOutgoing (c : Comm B) : SameOutgoing c c.newMid.2 :=
  sameOutgoing_log (e := .drawn c.newMid.1) rfl rfl rfl rfl

theorem drawMid_sameOutgoing (m : BinMessage B) (c : Comm B) : SameOutgoing c (drawMid conf m c).2 := by
  rw [drawMid]
  split
  · exact newMid_sameOutgoing c
  · exact sameOutgoing_of_history rfl rfl

theorem pushPrepearedMessage_pushes (m : PrepearedMessage B) (c : Comm B) :
    (c.pushPrepearedMessage m).pushes = c.pushes ++ [m] := pushes_log _ _

theorem pushPrepearedMessage_handed (m : PrepearedMessage B) (c : Comm B) :
    (c.pushPrepearedMessage m).handed = c.handed := by
  rw [pushPrepearedMessage, handed_log]; exact List.append_nil _

/-- A push keeps the queue's accounts. -/
theorem Delivered.push {c : Comm B} (h : c.Delivered) (m : PrepearedMessage B) :
    (c.pushPrepearedMessage m).Delivered := by
  rw [Delivered, pushPrepearedMessage_pushes, pushPrepearedMessage_handed]
  exact Conserved.push h m

/-- A send keeps them, whether it pushes or throws. -/
theorem Delivered.send {c : Comm B} (h : c.Delivered) (m : BinMessage B) :
    (c.prepareToWrite conf m).comm.Delivered := by
  refine prepareToWrite_invariant m h ?_ (fun d p hd => hd.push p)
  exact h.congr (newMid_sameOutgoing c)

/-- **Effects push, or leave the queue alone.** -/
theorem Effect.outgoing {c c' : Comm B} (he : Effect conf ch c c') :
    (∃ m, c' = c.pushPrepearedMessage m) ∨ SameOutgoing c c' := by
  cases he with
  | pushed _ m => exact .inl ⟨m, rfl⟩
  | connected => exact .inr (sameOutgoing_log (e := .connected) rfl rfl rfl rfl)
  | ctorThrew => exact .inr (sameOutgoing_log (e := .sessionCtorThrew) rfl rfl rfl rfl)
  | @sent _ it sent _ =>
      exact .inr ((regSent_sameOutgoing c it sent).trans
        (sameOutgoing_log (e := .messageSent it.mid) rfl rfl rfl rfl))
  | drawn => exact .inr (newMid_sameOutgoing c)
  | @request _ m => exact .inr (sameOutgoing_log (e := .messageArrived m) rfl rfl rfl rfl)
  | @reply _ m => exact .inr (sameOutgoing_log (e := .messageArrived m) rfl rfl rfl rfl)
  | @discarded m => exact .inr (sameOutgoing_log (e := .discarded m.rid) rfl rfl rfl rfl)
  | @timeout _ mid => exact .inr (sameOutgoing_log (e := .messageTimeout mid) rfl rfl rfl rfl)
  | afterProcessed => exact .inr (sameOutgoing_log (e := .afterProcessed) rfl rfl rfl rfl)
  | nullSession | taken | clearUpdated | channelError => exact .inr (sameOutgoing_of_history rfl rfl)
  | handshakeError =>
      right
      rw [disconnect]
      split <;> exact sameOutgoing_of_history rfl rfl

theorem Delivered.effect {c c' : Comm B} (he : Effect conf ch c c') (h : c.Delivered) : c'.Delivered := by
  rcases he.outgoing with ⟨m, rfl⟩ | hsame
  · exact h.push m
  · exact h.congr hsame

/-- The rest of the environment leaves the queue alone. -/
theorem envStep_sameOutgoing {c c' : Comm B} {e : EnvAct B} (h : c.envStep conf e = some c')
    (he : ∀ m, e ≠ .send m) : SameOutgoing c c' := by
  obtain ⟨_, hq, _, hfail⟩ := envStep_frame h he
  exact ⟨hfail.filterMap_eq (fun _ => rfl), hfail.filterMap_eq (fun _ => rfl), hq⟩

/-- Popping the message that was copied hands it over. -/
theorem Delivered.popAndWrite {c : Comm B} {m : PrepearedMessage B} (h : c.Delivered)
    (hfront : c.frontCopy = some m) : (c.popAndWrite m).Delivered := by
  obtain ⟨q, hq⟩ := List.head?_eq_some_iff.mp hfront
  have hold : (c.popAndWrite m).pushes = c.pushes := by
    rw [Comm.popAndWrite, pushes_log]; exact List.append_nil _
  have hnew : (c.popAndWrite m).handed = c.handed ++ [m] := handed_log _ _
  have hqueue : (c.popAndWrite m).prepearedMQueue = q := by rw [popAndWrite_prepearedMQueue, hq, List.tail_cons]
  rw [Delivered, hold, hnew, hqueue]
  rw [Delivered, hq] at h
  exact h.pop

end Comm

/-! ## Runs -/

namespace System

/-- The message that was copied, while the processing thread is between the two halves of a pop. -/
def copied? (s : System B) : Option (PrepearedMessage B) :=
  match s.proc with
  | some (.popping m) => some m
  | _                 => none

/-- The message a step sends. -/
def Act.send? : Act B → Option (BinMessage B)
  | .env (.send msg) => some msg
  | _                => none

/-- Between the two halves of a pop no message of a higher priority than the copied one is pushed. -/
def NoOvertaking (conf : Config B) (s : System B) (a : Act B) : Prop :=
  ∀ m ∈ s.copied?, ∀ msg ∈ a.send?, Comm.sendPriority conf msg ≤ m.priority

instance (s : System B) (a : Act B) : Decidable (NoOvertaking conf s a) :=
  inferInstanceAs (Decidable (∀ m ∈ s.copied?, ∀ msg ∈ a.send?, Comm.sendPriority conf msg ≤ m.priority))

theorem mem_copied? {s : System B} {m : PrepearedMessage B} (h : s.proc = some (.popping m)) :
    m ∈ s.copied? := by
  rw [copied?, h]; rfl

/-- What holds along a run without overtaking: the queue's accounts, and a message that was copied is still in
    front. -/
structure Delivering (s : System B) : Prop where
  inv       : s.Inv
  delivered : s.comm.Delivered
  front     : ∀ m, s.proc = some (.popping m) → s.comm.frontCopy = some m

/-- A push that does not overtake leaves the front where it is. -/
theorem frontCopy_send {c : Comm B} {m : PrepearedMessage B} {msg : BinMessage B}
    (hfront : c.frontCopy = some m) (hle : Comm.sendPriority conf msg ≤ m.priority) :
    (c.prepareToWrite conf msg).comm.frontCopy = some m := by
  have hq : (Comm.drawMid conf msg c).2.prepearedMQueue = c.prepearedMQueue :=
    (Comm.drawMid_sameOutgoing msg c).2.2
  obtain ⟨q, hc⟩ := List.head?_eq_some_iff.mp hfront
  rcases Comm.prepareToWrite_cases conf msg c with ⟨e, h, _⟩ | ⟨out, _, _, h⟩ <;> rw [h, Comm.frontCopy]
  · rw [hq, hc, List.head?_cons]
  · simp only [Comm.pushPrepearedMessage, Comm.log, hq, hc]
    rw [PriorityQueue.push_cons_of_le _ _ hle, List.head?_cons]

theorem Delivering.step {s s' : System B} {a : Act B} (h : s.Delivering) (hok : NoOvertaking conf s a)
    (hs : System.step conf s a = some s') : s'.Delivering := by
  have hinv' := h.inv.step hs
  rcases step_cases conf h.inv.session hs with ⟨e, c, rfl, hc, rfl⟩ | ⟨-, -, rfl⟩ | ⟨ch, m, -, hm, rfl⟩
    | ⟨ch, st, -, -, -, heff, hpop⟩
  · by_cases hsend : ∃ msg, e = .send msg
    · obtain ⟨msg, rfl⟩ := hsend
      cases hc
      exact ⟨hinv', h.delivered.send msg, fun m hm =>
        frontCopy_send (h.front m hm) (hok m (mem_copied? hm) msg rfl)⟩
    · have hsame := Comm.envStep_sameOutgoing hc (fun msg he => hsend ⟨msg, he⟩)
      refine ⟨hinv', h.delivered.congr hsame, fun m hm => ?_⟩
      rw [Comm.frontCopy]
      simp only [hsame.2.2]
      exact h.front m hm
  · exact ⟨hinv', h.delivered, fun m hm => by cases hm⟩
  · exact ⟨hinv', h.delivered.popAndWrite (h.front m hm), fun m hm => by cases hm⟩
  · refine ⟨hinv', heff.invariant (fun _ _ he hi => hi.effect he) h.delivered, fun m hm => ?_⟩
    obtain ⟨hsame, hfront⟩ := hpop m hm
    rw [hsame, hfront]

/-- A run up to the start of writing: the connection is announced and made, message `a` of priority 1 is sent,
    and the processing thread has copied it. -/
def upToCopy : List (Act .lp64) :=
  [.env .connectSuccess, .enter, .stage .plain, .env (.send ⟨[0x61], 1, 0, 1, []⟩),
    .stage .plain, .stage .plain, .stage .plain]

/-- A message of the same priority is sent before the pop. -/
def equalPriority : List (Act .lp64) := upToCopy ++ [.env (.send ⟨[0x62], 2, 0, 1, []⟩), .stage .plain]

end System

end Unicomm
