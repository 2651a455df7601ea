import Unicomm.Comm.System
import Unicomm.Lib.Pending
import Unicomm.Lib.Table

/-!
# `Comm.Outcomes` — what becomes of a registered request

`_mes_timeouts` is written by four operations that user code can leave midway. For every identifier the history
is read as a sequence of marks, and the table must be in the state the automaton of `Lib.Pending` reaches on
them (`Tracked`). That is an invariant of the effects, hence of every operation however it ends, and the counts
of outcomes and registrations follow from the automaton.
-/

namespace Unicomm

open Pending (Mark)

variable {B : Build} {conf : Config B} {ch : Choice B}

/-! ## Registrations and outcomes in a history -/

/-- A reply to `mid` was delivered. -/
def Event.isReplyTo (mid : MessageId B) : Event B → Bool
  | .messageArrived m => m.ridExists && m.rid == mid
  | _                 => false

/-- The timeout of `mid` was reported. -/
def Event.isTimeoutOf (mid : MessageId B) : Event B → Bool
  | .messageTimeout mid' => mid' == mid
  | _                    => false

/-- `mid` was registered. -/
def Event.isRegistrationOf (mid : MessageId B) : Event B → Bool
  | .registered mid' => mid' == mid
  | _                => false

/-- An outcome of `mid`: its reply was delivered or its timeout reported. -/
def Event.settles (mid : MessageId B) (e : Event B) : Bool := e.isReplyTo mid || e.isTimeoutOf mid

/-- The mark an event leaves on `mid`. -/
def Event.mark? (mid : MessageId B) (e : Event B) : Option Mark :=
  if e.isRegistrationOf mid then some .register else if e.settles mid then some .settle else none

namespace Comm

variable (c : Comm B) (mid : MessageId B)

/-- How often a reply to `mid` was delivered. -/
def deliveries : Nat := c.history.countP (Event.isReplyTo mid)

/-- How often the timeout of `mid` was reported. -/
def timeoutReports : Nat := c.history.countP (Event.isTimeoutOf mid)

/-- How often `mid` was registered. -/
def registrations : Nat := c.history.countP (Event.isRegistrationOf mid)

/-- The marks of `mid`. -/
def marks : List Mark := c.history.filterMap (Event.mark? mid)

theorem count_register_marks : c.registrations mid = (c.marks mid).count .register := by
  rw [registrations, marks]
  induction c.history with
  | nil => rfl
  | cons e es ih =>
      rw [List.countP_cons, ih, List.filterMap_cons, Event.mark?]
      by_cases hr : e.isRegistrationOf mid = true
      · simp [hr]
      · by_cases hs : e.settles mid = true <;> simp [hr, hs]

theorem count_settle_marks : c.deliveries mid + c.timeoutReports mid = (c.marks mid).count .settle := by
  rw [deliveries, timeoutReports, marks]
  induction c.history with
  | nil => rfl
  | cons e es ih =>
      rw [List.countP_cons, List.countP_cons, List.filterMap_cons, Event.mark?]
      cases e with
      | messageArrived m =>
          by_cases h : (m.ridExists && m.rid == mid) = true
          · simp [Event.isReplyTo, Event.isTimeoutOf, Event.isRegistrationOf, Event.settles, h, ← ih]; omega
          · simp [Event.isReplyTo, Event.isTimeoutOf, Event.isRegistrationOf, Event.settles, h, ← ih]
      | messageTimeout mid' =>
          by_cases h : (mid' == mid) = true
          · simp [Event.isReplyTo, Event.isTimeoutOf, Event.isRegistrationOf, Event.settles, h, ← ih]; omega
          · simp [Event.isReplyTo, Event.isTimeoutOf, Event.isRegistrationOf, Event.settles, h, ← ih]
      | registered mid' =>
          by_cases h : (mid' == mid) = true <;>
            simp [Event.isReplyTo, Event.isTimeoutOf, Event.isRegistrationOf, Event.settles, h, ← ih]
      | drawn | pushed | handed | writeFailed | discarded | sessionCtorThrew | connected | messageSent | error
      | afterProcessed | disconnected =>
          simp [Event.isReplyTo, Event.isTimeoutOf, Event.isRegistrationOf, Event.settles, ← ih]

/-! ## The table and the automaton -/

/-- **The table is where the marks lead**: for every identifier the automaton accepts what happened, and it is
    in the table exactly when it is pending. -/
def Tracked (c : Comm B) : Prop :=
  ∀ mid, Machine.run Pending.step false (c.marks mid) = some (c.mesTimeouts.contains mid)

theorem Tracked.create (id : CommId) : (Comm.create id : Comm B).Tracked :=
  fun _ => congrArg some Std.ExtTreeMap.contains_empty.symm

variable {c}

theorem Tracked.congr {c' : Comm B} (h : c.Tracked) (hh : c'.history = c.history)
    (ht : c'.mesTimeouts = c.mesTimeouts) : c'.Tracked := by
  intro mid
  rw [marks, hh, ht]
  exact h mid

/-- An event that leaves no mark keeps it. -/
theorem Tracked.unmarked {c' : Comm B} (h : c.Tracked) {e : Event B} (hh : c'.history = c.history ++ [e])
    (he : ∀ mid, e.mark? mid = none) (ht : c'.mesTimeouts = c.mesTimeouts) : c'.Tracked := by
  intro mid
  rw [marks, filterMap_event hh (he mid), ht]
  exact h mid

/-- A registration enters the table. -/
theorem Tracked.register {c' : Comm B} (h : c.Tracked) {mid : MessageId B} {info : MessageTimeoutInfo}
    (hh : c'.history = c.history ++ [.registered mid]) (ht : c'.mesTimeouts = c.mesTimeouts.insert mid info) :
    c'.Tracked := by
  intro k
  rw [marks, hh, List.filterMap_append, ← marks, Machine.run_append, h k, ht,
    Table.contains_insert]
  by_cases hk : mid = k
  · subst hk
    have hmark : [Event.registered mid].filterMap (Event.mark? mid) = [.register] := by
      simp [Event.mark?, Event.isRegistrationOf]
    rw [hmark, decide_eq_true rfl, Bool.true_or]
    rfl
  · have hmark : [Event.registered mid].filterMap (Event.mark? k) = [] := by
      simp [Event.mark?, Event.isRegistrationOf, Event.settles, Event.isReplyTo, Event.isTimeoutOf, hk]
    rw [hmark, decide_eq_false hk, Bool.false_or]
    rfl

/-- An outcome leaves the table. -/
theorem Tracked.settle {c' : Comm B} (h : c.Tracked) {mid : MessageId B} {e : Event B}
    (hreg : c.mesTimeouts.contains mid = true) (hh : c'.history = c.history ++ [e])
    (hmark : ∀ k, e.mark? k = if mid = k then some .settle else none)
    (ht : c'.mesTimeouts = c.mesTimeouts.erase mid) : c'.Tracked := by
  intro k
  rw [marks, hh, List.filterMap_append, ← marks, Machine.run_append, h k, ht, Table.contains_erase]
  by_cases hk : mid = k
  · subst hk
    rw [List.filterMap_cons, hmark, if_pos rfl, hreg, decide_eq_true rfl]
    rfl
  · rw [List.filterMap_cons, hmark, if_neg hk, decide_eq_false hk, Bool.not_false, Bool.true_and]
    rfl

theorem contains_of_getElem? {mid : MessageId B} {info : MessageTimeoutInfo}
    (h : c.mesTimeouts[mid]? = some info) : c.mesTimeouts.contains mid = true := by
  rw [Std.ExtTreeMap.contains_eq_isSome_getElem?, h, Option.isSome_some]

/-- **Every effect keeps the table where the marks lead.** -/
theorem Tracked.effect {c' : Comm B} (he : Effect conf ch c c') (h : c.Tracked) : c'.Tracked := by
  cases he with
  | @sent _ it sent _ =>
      have hreg : (c.regSent conf ch it sent).Tracked := by
        rw [regSent]
        split
        · exact h.register rfl rfl
        · exact h.congr rfl rfl
      exact hreg.unmarked (e := .messageSent it.mid) rfl (fun _ => rfl) rfl
  | @reply _ m hm req hreq =>
      refine h.settle (contains_of_getElem? hreq) rfl (fun k => ?_) rfl
      simp [Event.mark?, Event.isRegistrationOf, Event.settles, Event.isReplyTo, Event.isTimeoutOf, hm]
  | @timeout _ mid info hreg =>
      refine h.settle (contains_of_getElem? hreg) rfl (fun k => ?_) rfl
      simp [Event.mark?, Event.isRegistrationOf, Event.settles, Event.isReplyTo, Event.isTimeoutOf]
  | @request _ m hm =>
      refine h.unmarked (e := .messageArrived m) rfl (fun k => ?_) rfl
      simp [Event.mark?, Event.isRegistrationOf, Event.settles, Event.isReplyTo, Event.isTimeoutOf, hm]
  | connected => exact h.unmarked (e := .connected) rfl (fun _ => rfl) rfl
  | ctorThrew => exact h.unmarked (e := .sessionCtorThrew) rfl (fun _ => rfl) rfl
  | drawn => exact h.unmarked (e := .drawn c.newMid.1) rfl (fun _ => rfl) rfl
  | @discarded m => exact h.unmarked (e := .discarded m.rid) rfl (fun _ => rfl) rfl
  | pushed _ m => exact h.unmarked (e := .pushed m) rfl (fun _ => rfl) rfl
  | afterProcessed => exact h.unmarked (e := .afterProcessed) rfl (fun _ => rfl) rfl
  | nullSession | taken | clearUpdated | channelError => exact h.congr rfl rfl
  | handshakeError => rw [disconnect]; split <;> exact h.congr rfl rfl

/-! ## The operations, in any order -/

theorem Tracked.send (h : c.Tracked) (m : BinMessage B) : (c.prepareToWrite conf m).comm.Tracked := by
  refine prepareToWrite_invariant m h ?_ (fun d p hd => ?_)
  · exact h.unmarked (e := .drawn c.newMid.1) rfl (fun _ => rfl) rfl
  · exact hd.unmarked (e := .pushed p) rfl (fun _ => rfl) rfl

theorem Tracked.envStep {c' : Comm B} {e : EnvAct B} (h : c.Tracked) (hstep : c.envStep conf e = some c') :
    c'.Tracked := by
  rcases envStep_cases hstep with ⟨m, rfl, rfl⟩ | he
  · exact h.send m
  · obtain ⟨_, _, ht, hfail⟩ := envStep_frame hstep he
    intro mid
    rw [marks, hfail.filterMap_eq (fun _ => rfl), ht]
    exact h mid

/-- The operations of a communicator one at a time, in any order. -/
inductive Op (B : Build) where
  | env (e : EnvAct B)
  | startWrite
  | connect (ch : Choice B)
  | processSent (ch : Choice B)
  | incoming (ch : Choice B) (m : BinMessage B)
  | timeouts (ch : Choice B)

/-- One operation. Handlers may throw: what counts is the communicator they leave. Incoming messages are only
    decoded once there is a session. -/
def opStep (conf : Config B) (c : Comm B) : Op B → Option (Comm B)
  | .env e          => c.envStep conf e
  | .startWrite     => c.frontCopy.map (fun m => c.popAndWrite m)
  | .connect ch     => some (runStage conf ch .connect c).1
  | .processSent ch => some (runStage conf ch .sent c).1
  | .incoming ch m  => if c.userSession then some (processIncoming conf ch m c).2 else none
  | .timeouts ch    => some (processTimeouts ch c).2

/-- An operation is a step of the environment, hands the front of the queue to the socket, or has effects. -/
theorem opStep_cases {c' : Comm B} {op : Op B} (hinv : c.SessionInv) (h : c.opStep conf op = some c') :
    (∃ e, op = .env e ∧ c.envStep conf e = some c')
      ∨ (∃ m ∈ c.prepearedMQueue, c' = c.popAndWrite m)
      ∨ ∃ ch, Effects conf ch c c' := by
  cases op with
  | env e => exact .inl ⟨e, rfl, h⟩
  | startWrite =>
      obtain ⟨m, hm, rfl⟩ := Option.map_eq_some_iff.mp h
      exact .inr (.inl ⟨m, List.mem_of_head? hm, rfl⟩)
  | connect ch | processSent ch =>
      cases h
      exact .inr (.inr ⟨ch, runStage_effects hinv (fun m => by simp)⟩)
  | incoming ch m =>
      rw [opStep] at h
      split at h
      · next hs =>
          cases h
          exact .inr (.inr ⟨ch, processIncoming_effects hs m⟩)
      · cases h
  | timeouts ch =>
      cases h
      cases hs : c.userSession with
      | true  => exact .inr (.inr ⟨ch, processTimeouts_effects hs⟩)
      | false => exact .inr (.inr ⟨ch, by rw [processTimeouts, hinv.timeouts hs]; exact .refl⟩)

/-- Every operation keeps the session invariant and the table where the marks lead. -/
theorem Tracked.opStep {c' : Comm B} {op : Op B} (hinv : c.SessionInv) (h : c.Tracked)
    (hstep : c.opStep conf op = some c') : c'.SessionInv ∧ c'.Tracked := by
  rcases opStep_cases hinv hstep with ⟨e, rfl, he⟩ | ⟨m, hm, rfl⟩ | ⟨ch, heff⟩
  · exact ⟨hinv.envStep he, h.envStep he⟩
  · have hsess : c.userSession = true := by
      by_contra hno
      rw [hinv.queue (Bool.eq_false_iff.mpr hno)] at hm
      cases hm
    exact ⟨.of_session hsess, h.unmarked (e := .handed m) rfl (fun _ => rfl) rfl⟩
  · exact ⟨heff.invariant (fun _ _ he hi => hi.effect he) hinv, heff.invariant (fun _ _ he hi => hi.effect he) h⟩

/-- A reply nobody waits for, or one that is not allowed, changes neither the table nor what was delivered. -/
theorem processIncoming_rejected (conf : Config B) (ch : Choice B) {m : BinMessage B} (c : Comm B)
    (hm : m.ridExists = true)
    (hrej : ∀ req, c.mesTimeouts[m.rid]? = some req → conf.isAllowedReply req.name m.name = false) :
    (processIncoming conf ch m c).2.mesTimeouts = c.mesTimeouts
      ∧ ∀ mid, (processIncoming conf ch m c).2.deliveries mid = c.deliveries mid := by
  rw [processIncoming, if_pos hm, processReply]
  split
  · refine ⟨rfl, fun mid => ?_⟩
    rw [deliveries, log, List.countP_append, List.countP_singleton]
    rfl
  · next req hreq =>
      rw [if_neg (by rw [hrej req hreq]; decide)]
      exact ⟨rfl, fun _ => rfl⟩

end Comm

/-- **Each registered request has at most one outcome.** After any operations in any order, with user code
    ending in any way: an identifier had at most as many outcomes as it was registered; after an outcome it is
    not registered until it is registered again; and a reply that is not registered or not allowed leaves the
    table as it was and is not delivered. -/
theorem Comm.outcomes_le_registrations (conf : Config B) (id : CommId) (ops : List (Comm.Op B)) (c : Comm B)
    (hrun : Machine.run (Comm.opStep conf) (Comm.create id) ops = some c) :
    (∀ mid, c.deliveries mid + c.timeoutReports mid ≤ c.registrations mid)
      ∧ (∀ mid before e after, c.history = before ++ e :: after → e.settles mid = true →
          .registered mid ∉ after → c.isTimeoutRegistered mid = false)
      ∧ ∀ (ch : Choice B) (m : BinMessage B), m.ridExists = true →
          (∀ req, c.mesTimeouts[m.rid]? = some req → conf.isAllowedReply req.name m.name = false) →
          (Comm.processIncoming conf ch m c).2.mesTimeouts = c.mesTimeouts
            ∧ ∀ mid, (Comm.processIncoming conf ch m c).2.deliveries mid = c.deliveries mid := by
  have hc : c.SessionInv ∧ c.Tracked := Machine.run_invariant (fun c => c.SessionInv ∧ c.Tracked)
    (fun _ _ _ hi hs => Comm.Tracked.opStep hi.1 hi.2 hs) ops _ _ ⟨.create id, .create id⟩ hrun
  refine ⟨fun mid => ?_, fun mid before e after hsplit he hno => ?_,
    fun ch m hm hrej => Comm.processIncoming_rejected conf ch c hm hrej⟩
  · have hle := Pending.count_settle_le (hc.2 mid)
    rw [← Comm.count_settle_marks, ← Comm.count_register_marks, Bool.toNat_false] at hle
    omega
  · have hrun := hc.2 mid
    have hnotreg : e.isRegistrationOf mid = false := by
      cases e <;> simp_all [Event.settles, Event.isReplyTo, Event.isTimeoutOf, Event.isRegistrationOf]
    have hmark : e.mark? mid = some .settle := by simp [Event.mark?, hnotreg, he]
    rw [Comm.marks, hsplit, List.filterMap_append, List.filterMap_cons_some hmark] at hrun
    refine Pending.not_pending_after_settle hrun (fun hin => hno ?_)
    obtain ⟨e', he', hm'⟩ := List.mem_filterMap.mp hin
    rw [Event.mark?] at hm'
    split at hm'
    · next hr =>
        cases e' <;> simp [Event.isRegistrationOf] at hr
        rwa [← hr]
    · split at hm' <;> cases hm'

namespace Comm

/-- A request is sent, its completion handled, its reply delivered, and the reply's duplicate thrown away. -/
def answered : List (Op .lp64) :=
  [.env .connectSuccess, .connect .plain, .env (.send ⟨[0x61], 5, 0, 0, []⟩), .startWrite,
    .env (.writeSome 0 13), .env (.writeDone 0), .processSent .plain,
    .incoming .plain ⟨[0x62], 0, 5, 0, []⟩, .incoming .plain ⟨[0x62], 0, 5, 0, []⟩, .timeouts .plain]

/-- The guarantee on that run. -/
theorem outcomes_le_registrations_answered : ∃ c : Comm .lp64,
    Machine.run (Comm.opStep Config.asking) (Comm.create 1) answered = some c
      ∧ (∀ mid, c.deliveries mid + c.timeoutReports mid ≤ c.registrations mid)
      ∧ (∀ mid before e after, c.history = before ++ e :: after → e.settles mid = true →
          .registered mid ∉ after → c.isTimeoutRegistered mid = false)
      ∧ ∀ (ch : Choice .lp64) (m : BinMessage .lp64), m.ridExists = true →
          (∀ req, c.mesTimeouts[m.rid]? = some req → Config.asking.isAllowedReply req.name m.name = false) →
          (Comm.processIncoming Config.asking ch m c).2.mesTimeouts = c.mesTimeouts
            ∧ ∀ mid, (Comm.processIncoming Config.asking ch m c).2.deliveries mid = c.deliveries mid :=
  ⟨_, rfl, outcomes_le_registrations Config.asking 1 answered _ rfl⟩

end Comm

end Unicomm
