import Unicomm.Comm.Identity
import Unicomm.Comm.NoTimeouts
import Unicomm.Comm.Reading

/-!
# `Comm.Origin` — no message is made up

`prepare_to_write` is the only place that pushes, and it has two callers: `send`, which an application calls, and
`process_received`, which sends what a message arrived handler left as its reply. So every message in the outgoing
queue was given to the communicator by user code. `Origin` says by which: with which content, and for a reply, which
message it answers. The library fills in identifier and priority and touches nothing else (`FilledIn`).
-/

namespace Unicomm

variable {B : Build} {conf : Config B} {ch : Choice B}

/-- The events that decoding a message records: it arrives or is thrown away, and a reply may be sent. -/
def Event.ofDecoding : Event B → Bool
  | .drawn _ | .pushed _ | .messageArrived _ | .discarded _ => true
  | _                                                       => false

/-- A prepared message is the encoding of `m`. -/
structure PrepearedMessage.Encodes (conf : Config B) (p : PrepearedMessage B) (m : BinMessage B) : Prop where
  bytes : conf.messageEncoder.performEncode m = .ok p.outBuffer
  id    : p.id = m.id
  name  : p.name = m.name

/-- `m` is the message that was given, with an identifier where it had none and a priority. -/
structure FilledIn (given m : BinMessage B) : Prop where
  name : m.name = given.name
  rid  : m.rid = given.rid
  tail : m.tail = given.tail
  id   : given.idExists = true → m.id = given.id

/-- **Where a message comes from**, given the steps taken and the messages that arrived so far. -/
inductive Origin (past : List (System.Act B)) (arrivals : List (BinMessage B)) (m : BinMessage B) : Prop where
  /-- An application called `send`. -/
  | sent {given : BinMessage B} (hsend : .env (.send given) ∈ past) (hm : FilledIn given m)
  /-- The handler of `arrived` set it as its reply. -/
  | replied {ch : Choice B} {offered : MessageId B} {outm arrived : BinMessage B} (hstage : .stage ch ∈ past)
      (hreply : ch.reply offered = some outm) (harrived : arrived ∈ arrivals)
      (hm : FilledIn { outm with rid := arrived.id } m)

/-- Later it still comes from there. -/
theorem Origin.mono {past past' : List (System.Act B)} {arrivals arrivals' : List (BinMessage B)} {m : BinMessage B}
    (h : Origin past arrivals m) (hpast : past ⊆ past') (harrivals : arrivals ⊆ arrivals') :
    Origin past' arrivals' m := by
  cases h with
  | sent hsend hm => exact .sent (hpast hsend) hm
  | replied hstage hreply harrived hm => exact .replied (hpast hstage) hreply (harrivals harrived) hm

namespace Comm

variable {c c' : Comm B}

/-- What `prepare_to_write` writes into a message. -/
theorem filledIn_stamped (m : BinMessage B) (c : Comm B) : FilledIn m (stamped conf m c) := by
  refine ⟨rfl, rfl, rfl, fun hid => ?_⟩
  unfold stamped drawMid
  rw [hid, Bool.not_true, Bool.and_false]
  rfl

/-- A send pushes the encoding of the stamped message, or nothing. -/
theorem pushes_prepareToWrite (conf : Config B) (m : BinMessage B) (c : Comm B) :
    (c.prepareToWrite conf m).comm.pushes = c.pushes
      ∨ ∃ p : PrepearedMessage B, (c.prepareToWrite conf m).comm.pushes = c.pushes ++ [p]
          ∧ p.Encodes conf (stamped conf m c) := by
  obtain ⟨-, hpushes⟩ : _ ∧ (drawMid conf m c).2.pushes = c.pushes := drawMid_same m c
  rcases prepareToWrite_cases conf m c with ⟨e, h, -⟩ | ⟨out, -, hout, h⟩ <;> rw [h]
  · exact .inl hpushes
  · refine .inr ⟨⟨(drawMid conf m c).1, m.name, sendPriority conf m, out⟩, ?_, hout, rfl, rfl⟩
    rw [pushPrepearedMessage_pushes, hpushes]

/-- The reply that is sent is the one the handler set, made an answer to the message it handled. -/
theorem filledIn_makeReply (m outm : BinMessage B) (c d : Comm B) :
    FilledIn { outm with rid := m.id } (stamped conf (makeReply conf (c.offerMid conf).1 m outm) d) := by
  have hmade : stamped conf (makeReply conf (c.offerMid conf).1 m outm) d
      = { makeReply conf (c.offerMid conf).1 m outm with
          id := replyMid conf (c.offerMid conf).1 outm
          priority := sendPriority conf (makeReply conf (c.offerMid conf).1 m outm) } := by
    rw [stamped, drawMid_makeReply]
  rw [hmade]
  refine ⟨?_, rfl, ?_, fun hid => ?_⟩
  · show (makeReply conf (c.offerMid conf).1 m outm).name = outm.name
    unfold makeReply
    split <;> rfl
  · show (makeReply conf (c.offerMid conf).1 m outm).tail = outm.tail
    unfold makeReply
    split <;> rfl
  · have hown : outm.idExists = true := hid
    show replyMid conf (c.offerMid conf).1 outm = outm.id
    rw [replyMid, hown, Bool.not_true, Bool.and_false]
    rfl

/-! ## What the stages push -/

/-- Nothing was pushed, or the reply a handler set to a message that arrived. -/
def PushesReply (conf : Config B) (ch : Choice B) (c c' : Comm B) : Prop :=
  c'.pushes = c.pushes
    ∨ ∃ (offered : MessageId B) (outm arrived m : BinMessage B) (p : PrepearedMessage B),
        ch.reply offered = some outm ∧ arrived ∈ c'.arrivals ∧ c'.pushes = c.pushes ++ [p]
          ∧ p.Encodes conf m ∧ FilledIn { outm with rid := arrived.id } m

theorem PushesReply.congr {d : Comm B} (h : PushesReply conf ch d c') (hpushes : d.pushes = c.pushes) :
    PushesReply conf ch c c' := by
  unfold PushesReply at h ⊢
  rw [hpushes] at h
  exact h

theorem processReceived_pushesReply (hs : c.userSession = true) (m : BinMessage B) :
    PushesReply conf ch c (processReceived conf ch m c).2 := by
  have harrived : m ∈ (processReceived conf ch m c).2.arrivals := by
    rw [arrivals_processReceived hs]
    exact List.mem_append_right _ List.mem_cons_self
  have hoffer : (c.offerMid conf).2.pushes = c.pushes := filterMap_offerMid (fun _ => rfl) c
  have hcalled : ((c.offerMid conf).2.callHandler (.messageArrived m) (ch.handler 0)).2.pushes = c.pushes :=
    (filterMap_callHandler rfl _ _).trans hoffer
  rw [processReceived, ← offerMid] at harrived ⊢
  rcases hcall : (c.offerMid conf).2.callHandler (.messageArrived m) (ch.handler 0) with ⟨_ | e, d⟩
  · rw [hcall] at hcalled harrived
    simp only [andThen] at harrived ⊢
    cases hreply : ch.reply (c.offerMid conf).1 with
    | none => exact .inl hcalled
    | some outm =>
        simp only [hreply] at harrived ⊢
        have hsent : m ∈ (d.prepareToWrite conf (makeReply conf (c.offerMid conf).1 m outm)).comm.arrivals →
            PushesReply conf ch c (d.prepareToWrite conf (makeReply conf (c.offerMid conf).1 m outm)).comm := by
          intro hm
          rcases pushes_prepareToWrite conf (makeReply conf (c.offerMid conf).1 m outm) d with
            hsame | ⟨p, hp, henc⟩
          · exact .inl (hsame.trans hcalled)
          · exact .inr ⟨_, outm, m, _, p, hreply, hm, by rw [hp, hcalled], henc, filledIn_makeReply m outm c d⟩
        cases hresult : (d.prepareToWrite conf (makeReply conf (c.offerMid conf).1 m outm)).result with
        | ok _ | error _ =>
            simp only [hresult] at harrived ⊢
            exact hsent harrived
  · rw [hcall] at hcalled
    exact .inl hcalled

theorem processIncoming_pushesReply (hs : c.userSession = true) (m : BinMessage B) :
    PushesReply conf ch c (processIncoming conf ch m c).2 := by
  unfold processIncoming processReply
  split
  · split
    · exact .inl (filterMap_event (e := .discarded m.rid) rfl rfl)
    · split
      · have hunreg : (c.unregMessageTimeout m.rid).userSession = true := hs
        exact processReceived_pushesReply hunreg m
      · exact .inl rfl
  · exact processReceived_pushesReply hs m

/-- Decoding apart, the stages record nothing that `f` counts, if it only counts what decoding records. -/
theorem filterMap_runStage_of_ne {β : Type} {f : Event B → Option β}
    (hf : ∀ e : Event B, e.ofDecoding = false → f e = none) {st : Stage B} (hst : st ≠ .decode) (c : Comm B) :
    (runStage conf ch st c).1.history.filterMap f = c.history.filterMap f := by
  refine filterMap_runStage (fun e he => hf e ?_) c
  -- what a stage records and what decoding records are told apart event by event
  cases st with
  | decode => exact absurd rfl hst
  | connect | sent | arrived | clearUpdated | write | popping | timeouts | errors | afterProcessed =>
      cases e <;> first | rfl | cases he

/-- Decoding apart, the stages push nothing. -/
theorem runStage_pushes {st : Stage B} (hst : st ≠ .decode) (c : Comm B) :
    (runStage conf ch st c).1.pushes = c.pushes :=
  filterMap_runStage_of_ne (fun e he => by cases e <;> first | rfl | cases he) hst c

/-- Without a session nothing is decoded. -/
theorem session_of_mtPerformDecode {o : Option (BinMessage B)} (h : (mtPerformDecode conf c).1 = .ok o) :
    c.userSession = true := by
  by_contra hno
  rw [mtPerformDecode, if_neg hno] at h
  cases h

/-- **What a stage pushes**: the reply to a message that arrived, or nothing. -/
theorem runStage_pushesReply (conf : Config B) (ch : Choice B) (st : Stage B) (c : Comm B) :
    PushesReply conf ch c (runStage conf ch st c).1 := by
  by_cases hst : st = .decode
  · subst hst
    rw [runStage]
    split
    · have hpushes : (mtPerformDecode conf c).2.pushes = c.pushes := by
        unfold mtPerformDecode
        split <;> rfl
      have hsess : (mtPerformDecode conf c).2.userSession = c.userSession :=
        mtPerformDecode_userSession c
      rcases hr : mtPerformDecode conf c with ⟨e | _ | m, d⟩ <;> rw [hr] at hpushes hsess
      · exact .inl hpushes
      · exact .inl hpushes
      · have hs : d.userSession = true := by
          rw [hsess]
          exact session_of_mtPerformDecode (by rw [hr])
        simp only [proceed_fst]
        exact (processIncoming_pushesReply hs m).congr hpushes
    · exact .inl rfl
  · exact .inl (runStage_pushes hst c)

end Comm

/-! ## Runs -/

namespace System

/-- What happened stays in the history. -/
theorem history_step {s s' : System B} {a : Act B} (hinv : s.Inv) (h : System.step conf s a = some s') :
    s.comm.history <+: s'.comm.history := by
  rcases step_cases conf hinv.session h with ⟨e, c, -, hc, rfl⟩ | ⟨-, -, rfl⟩ | ⟨ch, m, -, -, rfl⟩
    | ⟨ch, st, -, -, -, heff, -⟩
  · have hop : s.comm.opStep conf (.env e) = some c := hc
    exact Comm.history_opStep hinv.session hop
  · exact List.prefix_rfl
  · exact List.prefix_append _ _
  · exact heff.history_prefix

/-- Every message pushed so far was given to the communicator by user code. -/
def Given (conf : Config B) (past : List (Act B)) (c : Comm B) : Prop :=
  ∀ p ∈ c.pushes, ∃ m, p.Encodes conf m ∧ Origin past c.arrivals m

/-- A step that pushes nothing, or one message that has an origin. -/
theorem Given.step_of {past past' : List (Act B)} {c c' : Comm B} (h : Given conf past c) (hpast : past ⊆ past')
    (hhist : c.history <+: c'.history)
    (hnew : c'.pushes = c.pushes ∨ ∃ p m, c'.pushes = c.pushes ++ [p] ∧ p.Encodes conf m ∧ Origin past' c'.arrivals m) :
    Given conf past' c' := by
  have harrivals : c.arrivals ⊆ c'.arrivals := (hhist.filterMap Event.arrived?).subset
  have hold : ∀ p ∈ c.pushes, ∃ m, p.Encodes conf m ∧ Origin past' c'.arrivals m := by
    intro p hp
    obtain ⟨m, henc, horigin⟩ := h p hp
    exact ⟨m, henc, horigin.mono hpast harrivals⟩
  intro p hp
  rcases hnew with hsame | ⟨q, m, hq, henc, horigin⟩
  · rw [hsame] at hp
    exact hold p hp
  · rw [hq, List.mem_append, List.mem_singleton] at hp
    rcases hp with hp | rfl
    · exact hold p hp
    · exact ⟨m, henc, horigin⟩

theorem Given.step {past : List (Act B)} {s s' : System B} {a : Act B} (hinv : s.Inv) (h : Given conf past s.comm)
    (hs : System.step conf s a = some s') : Given conf (past ++ [a]) s'.comm := by
  have hlast : a ∈ past ++ [a] := List.mem_append_right _ List.mem_cons_self
  refine h.step_of (List.subset_append_left _ _) (history_step hinv hs) ?_
  cases a with
  | env e =>
      obtain ⟨c, hc, rfl⟩ := Option.map_eq_some_iff.mp hs
      rcases Comm.envStep_cases hc with ⟨m, rfl, rfl⟩ | he
      · rcases Comm.pushes_prepareToWrite conf m s.comm with hsame | ⟨p, hp, henc⟩
        · exact .inl hsame
        · exact .inr ⟨p, _, hp, henc, .sent hlast (Comm.filledIn_stamped m s.comm)⟩
      · exact .inl (Comm.envStep_sameOutgoing hc he).1
  | enter =>
      rw [System.step] at hs
      split at hs <;> cases hs
      exact .inl rfl
  | stage ch =>
      obtain ⟨st, -, rfl⟩ := step_stage hs
      rcases Comm.runStage_pushesReply conf ch st s.comm with
        hsame | ⟨offered, outm, arrived, m, p, hreply, harrived, hp, henc, hfilled⟩
      · exact .inl hsame
      · exact .inr ⟨p, m, hp, henc, .replied hlast hreply harrived hfilled⟩

/-- **No message is made up**, in every reachable state. -/
theorem given_run {id : CommId} {as : List (Act B)} {s : System B}
    (h : Machine.run (System.step conf) (System.init id) as = some s) : Given conf as s.comm := by
  have hrun := Machine.run_past_of_step (fun past (s : System B) => s.Inv ∧ Given conf past s.comm)
    (fun past s a s' hi hs => ⟨hi.1.step hs, hi.2.step hi.1 hs⟩)
    ⟨.init id, fun p hp => absurd hp List.not_mem_nil⟩ h
  exact hrun.2

end System

end Unicomm
