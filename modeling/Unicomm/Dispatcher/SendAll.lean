import Unicomm.Comm.Outgoing
import Unicomm.Lib.SplitMap
import Unicomm.Dispatcher.Exclusion

/-!
# `Dispatcher.SendAll` — whom a message to everybody reaches

A call of `send_all` that returns queues its message once on every communicator of each of its two passes
(`sendAllPass_returned`). The passes lock separately, and in between threads take communicators out and give
them back: one that **changes the collection** gets the message twice or not at all. `sendAll_once_iff` says
this exactly.
-/

namespace Unicomm

variable {B : Build} {conf : Config B}

/-- A copy of `m` in a queue, under an identifier and a priority of its own. -/
def PrepearedMessage.CopyOf (conf : Config B) (m : BinMessage B) (x : PrepearedMessage B) : Prop :=
  x.name = m.name
    ∧ conf.messageEncoder.performEncode { m with id := x.id, priority := x.priority } = .ok x.outBuffer

namespace Comm

/-- A send that returns has queued the message under the identifier it returns. -/
theorem prepareToWrite_returned {c : Comm B} {m : BinMessage B} {mid : MessageId B}
    (h : (c.prepareToWrite conf m).result = .ok mid) :
    ∃ x, (c.prepareToWrite conf m).comm.pushes = c.pushes ++ [x] ∧ x.CopyOf conf m ∧ x.id = mid := by
  rcases prepareToWrite_cases conf m c with ⟨e, hc, -⟩ | ⟨out, -, henc, hc⟩ <;> rw [hc] at h ⊢
  · cases h
  · cases h
    refine ⟨⟨(drawMid conf m c).1, m.name, sendPriority conf m, out⟩, ?_, ⟨rfl, henc⟩, rfl⟩
    rw [pushPrepearedMessage_pushes, (drawMid_sameOutgoing m c).1]

end Comm

/-! ## One pass -/

/-- **What a pass that returns has done** to communicator `id`: queued the message on it, under the identifier
    the map gives, if `id` is one of those it goes over, and nothing otherwise. -/
theorem messageSender_returned {ids : List CommId} (hnodup : ids.Nodup) {sended : FullMessageidMap B}
    {m : BinMessage B} {comms : CommId → Comm B} (hfresh : ∀ k ∈ ids, sended[k]? = none)
    (hret : (messageSender conf ids sended m comms).thrown = none) (id : CommId) :
    if id ∈ ids then
      ∃ x, ((messageSender conf ids sended m comms).comms id).pushes = (comms id).pushes ++ [x]
        ∧ x.CopyOf conf m ∧ (messageSender conf ids sended m comms).sended[id]? = some x.id
    else
      (messageSender conf ids sended m comms).comms id = comms id
        ∧ (messageSender conf ids sended m comms).sended[id]? = sended[id]? := by
  induction ids generalizing sended m comms with
  | nil => rw [if_neg List.not_mem_nil]; exact ⟨rfl, rfl⟩
  | cons k ids ih =>
      obtain ⟨hk, hnodup'⟩ := List.nodup_cons.mp hnodup
      unfold messageSender at hret ⊢
      cases hr : ((comms k).prepareToWrite conf m).result with
      | error e => simp only [hr] at hret; cases hret
      | ok mid =>
          simp only [hr] at hret ⊢
          obtain ⟨x, hpush, hxcopy, hxid⟩ := Comm.prepareToWrite_returned hr
          have hcopy : ∀ y : PrepearedMessage B, y.CopyOf conf ((comms k).prepareToWrite conf m).message →
              y.CopyOf conf m := by
            intro y hy
            rw [Comm.prepareToWrite_message] at hy
            exact hy
          have hmap : ∀ j, (sended.insertIfNew k mid)[j]? = if j = k then some mid else sended[j]? := by
            intro j
            rw [Std.ExtTreeMap.getElem?_insertIfNew]
            by_cases hj : j = k
            · have hnone : k ∉ sended := by
                rw [← Std.ExtTreeMap.isSome_getElem?_iff_mem, hfresh k List.mem_cons_self]
                exact Bool.false_ne_true
              rw [if_pos ⟨Std.compare_eq_iff_eq.mpr hj.symm, hnone⟩, if_pos hj]
            · rw [if_neg (fun hand => hj (Std.compare_eq_iff_eq.mp hand.1).symm), if_neg hj]
          have hfresh' : ∀ j ∈ ids, (sended.insertIfNew k mid)[j]? = none := by
            intro j hj
            have hne : j ≠ k := fun he => hk (he ▸ hj)
            rw [hmap, if_neg hne, hfresh j (List.mem_cons_of_mem k hj)]
          have hrest := ih hnodup' hfresh' hret
          by_cases hid : id = k
          · -- its own send, and the rest of the pass leaves it alone
            rw [if_neg (by rw [hid]; exact hk), hid, Function.update_self, hmap, if_pos rfl] at hrest
            rw [if_pos (by rw [hid]; exact List.mem_cons_self), hid]
            exact ⟨x, by rw [hrest.1, hpush], hxcopy, by rw [hrest.2, hxid]⟩
          · simp only [List.mem_cons, hid, false_or]
            rw [Function.update_of_ne hid, hmap, if_neg hid] at hrest
            split at hrest
            · next hin =>
                obtain ⟨y, hy, hycopy, hyid⟩ := hrest
                rw [if_pos hin]
                exact ⟨y, hy, hcopy y hycopy, hyid⟩
            · next hin => rw [if_neg hin]; exact hrest

/-- The same for a pass over a collection. -/
theorem sendAllPass_returned {clients : CommCollection} {m : BinMessage B} {comms : CommId → Comm B}
    (hret : (sendAllPass conf clients m comms).thrown = none) (id : CommId) :
    if id ∈ clients then
      ∃ x, ((sendAllPass conf clients m comms).comms id).pushes = (comms id).pushes ++ [x]
        ∧ x.CopyOf conf m ∧ (sendAllPass conf clients m comms).sended[id]? = some x.id
    else
      (sendAllPass conf clients m comms).comms id = comms id
        ∧ (sendAllPass conf clients m comms).sended[id]? = none := by
  have hnodup : clients.toList.Nodup :=
    Std.ExtTreeSet.distinct_toList.imp (fun hab he => hab (Std.compare_eq_iff_eq.mpr he))
  have h := messageSender_returned hnodup (fun _ _ => Std.ExtTreeMap.getElem?_empty) hret id
  simp only [Std.ExtTreeSet.mem_toList, Std.ExtTreeMap.getElem?_empty] at h
  exact h

/-- A pass leaves everything but the identifier and the priority of the message as it is. -/
theorem messageSender_message (ids : List CommId) (sended : FullMessageidMap B) (m : BinMessage B)
    (comms : CommId → Comm B) :
    ∃ id priority, (messageSender conf ids sended m comms).message = { m with id, priority } := by
  induction ids generalizing sended m comms with
  | nil => exact ⟨m.id, m.priority, rfl⟩
  | cons k ids ih =>
      have hone := @Comm.prepareToWrite_message B conf m (comms k)
      unfold messageSender
      simp only
      split
      · exact ⟨_, _, hone⟩
      · rw [hone]
        obtain ⟨id, priority, h⟩ := ih (sended.insertIfNew k _) (Comm.stamped conf m (comms k))
          (Function.update comms k ((comms k).prepareToWrite conf m).comm)
        exact ⟨id, priority, h⟩

/-! ## The returned map -/

/-- **The first result wins in the returned map.** -/
theorem getElem?_mergeSended (primary excluded : FullMessageidMap B) (k : CommId) :
    (mergeSended primary excluded)[k]? = primary[k]?.or excluded[k]? :=
  SplitMap.getElem?_insertAll primary excluded k

/-! ## A call between its passes -/

namespace Running

variable {N M : Nat} {s s' : Running B N M}

/-- A thread in the middle of `send_all` stays there until it makes its second pass. -/
theorem Move.sendingAll {act : Act B N M} (hm : Move conf s act s') {a : Fin M} {m : BinMessage B}
    {sended : FullMessageidMap B} (ha : s.agents a = .sendingAll m sended) (hact : act ≠ .sendAllExcluded a) :
    s'.agents a = .sendingAll m sended := by
  -- the moves of the other agents are not this one's, because it is not where they start
  have hother : ∀ {b : Fin M} {x y : Agent B}, s.agents b = x → x ≠ .sendingAll m sended →
      Function.update s.agents b y a = .sendingAll m sended := by
    intro b x y hb hx
    have hne : a ≠ b := fun he => hx (by rw [← hb, ← he, ha])
    rw [Function.update_of_ne hne, ha]
  cases hm with
  | accept hb | report hb | send hb | sendAllPrimary hb | readAppend hb | readUpdated hb =>
      exact hother hb (fun hc => by cases hc)
  | @kick b mids k hb =>
      have hk := (s.kickStep_frame k).2.2.2.2
      show Function.update (s.kickStep k).2.agents b _ a = _
      rw [hk]
      exact hother hb (fun hc => by cases hc)
  | @sendAllExcluded b m' sended' p hb hp =>
      have hne : a ≠ b := fun he => hact (by rw [he])
      show Function.update s.agents b _ a = _
      rw [Function.update_of_ne hne, ha]
  | @kickThread t ch comms k ht =>
      show (s.kickStep k).2.agents a = _
      rw [(s.kickStep_frame k).2.2.2.2, ha]
  | caught ht =>
      unfold catchStep
      simp only
      split
      · split <;> exact ha
      · exact ha
  | comm | start | take | empty | stage | check | removed | getBack | finish => exact ha

/-- **A call of `send_all` by thread `a` that returns `mids`**: its primary pass leads from `s₁` to `s₂` and
    does not throw, then anything happens but its excluded pass, which leads from `s₃` to `s₄` and does not
    throw either. -/
structure SendAllCall (conf : Config B) (a : Fin M) (m : BinMessage B) (mids : FullMessageidMap B)
    (s₁ s₂ s₃ s₄ : Running B N M) : Prop where
  primary  : step conf s₁ (.sendAllPrimary a m) = some s₂
  goesOn   : s₂.agents a ≠ .idle
  between  : ∃ as, Machine.run (step conf) s₂ as = some s₃ ∧ .sendAllExcluded a ∉ as
  excluded : step conf s₃ (.sendAllExcluded a) = some s₄
  returns  : s₄.agents a = .kicking mids .test

/-- What was queued on communicator `id` from `s` to `s'`. -/
def queued (s s' : Running B N M) (id : CommId) : List (PrepearedMessage B) :=
  (s'.comms id).pushes.drop (s.comms id).pushes.length

theorem queued_of_append {id : CommId} {x : PrepearedMessage B}
    (h : (s'.comms id).pushes = (s.comms id).pushes ++ [x]) : queued s s' id = [x] := by
  rw [queued, h, List.drop_left]

theorem queued_of_eq {id : CommId} (h : s'.comms id = s.comms id) : queued s s' id = [] := by
  rw [queued, h, List.drop_length]

variable {a : Fin M} {m : BinMessage B} {mids : FullMessageidMap B} {s₁ s₂ s₃ s₄ : Running B N M}

/-- What both passes did: the second one goes on with the message and the map of the first one, and a copy of that
    message is one of the first. -/
theorem SendAllCall.passes (h : SendAllCall conf a m mids s₁ s₂ s₃ s₄) :
    ∃ m' sended, (∀ x : PrepearedMessage B, x.CopyOf conf m' → x.CopyOf conf m)
      ∧ (sendAllPass conf s₁.clients.clients m s₁.comms).thrown = none
      ∧ s₂.comms = (sendAllPass conf s₁.clients.clients m s₁.comms).comms
      ∧ sended = (sendAllPass conf s₁.clients.clients m s₁.comms).sended
      ∧ (sendAllPass conf s₃.clients.excluded m' s₃.comms).thrown = none
      ∧ s₄.comms = (sendAllPass conf s₃.clients.excluded m' s₃.comms).comms
      ∧ mids = mergeSended sended (sendAllPass conf s₃.clients.excluded m' s₃.comms).sended := by
  obtain ⟨as, hrun, hno⟩ := h.between
  have hexcluded := step_move h.excluded
  cases hexcluded with
  | @sendAllExcluded _ m' sended p ha₃ hp =>
      -- the excluded pass did not throw, because the call returns
      have hret : p.thrown = none ∧ mids = mergeSended sended p.sended := by
        have hreturns := h.returns
        simp only [setAgent, Function.update_self, afterSend] at hreturns
        split at hreturns
        · cases hreturns
        · next hsome =>
            injection hreturns with hmids
            exact ⟨Option.not_isSome_iff_eq_none.mp hsome, hmids.symm⟩
      have hprimary := step_move h.primary
      generalize hs₂ : s₂ = s at hprimary
      cases hprimary with
      | @sendAllPrimary _ _ p₁ ha₁ hp₁ =>
          -- nor did the primary one, which left the thread between the passes
          have hagent : s₂.agents a = afterSend p₁.thrown (.sendingAll p₁.message p₁.sended) := by
            rw [hs₂]; exact Function.update_self ..
          have hthrown : p₁.thrown = none := by
            cases ht : p₁.thrown with
            | none   => rfl
            | some e => exact absurd (by rw [hagent, ht]; rfl) h.goesOn
          rw [hthrown] at hagent
          -- where it stayed, so the excluded pass gets what the primary one left
          have hstill : s₃.agents a = .sendingAll p₁.message p₁.sended := by
            have hok : ∀ (_ : Running B N M), ∀ act ∈ as, act ≠ .sendAllExcluded a :=
              fun _ act hact he => hno (he ▸ hact)
            exact Machine.run_guarded_invariant (fun s => s.agents a = .sendingAll p₁.message p₁.sended)
              (fun _ _ _ hi hok hs => (step_move hs).sendingAll hi hok) as s₂ s₃ hagent
              (Machine.guarded_of_mem hok) hrun
          rw [ha₃] at hstill
          injection hstill with hm hsended
          subst hm hsended hp hp₁
          have hcopy : ∀ x : PrepearedMessage B,
              x.CopyOf conf (sendAllPass conf s₁.clients.clients m s₁.comms).message → x.CopyOf conf m := by
            obtain ⟨id, priority, hm⟩ := @messageSender_message B conf s₁.clients.clients.toList ∅ m s₁.comms
            intro x hx
            rw [sendAllPass, hm] at hx
            exact hx
          exact ⟨_, _, hcopy, hthrown, rfl, rfl, hret.1, rfl, hret.2⟩

/-- **`send_all` reaches a communicator exactly once if and only if it is in the same collection at both
    passes.** Whatever happened before and happens between the passes: a communicator that is in the container
    when the call ends gets exactly one copy of the message queued by the call, and is in the returned map under
    the identifier used, exactly when it was not moved from one collection to the other in between. -/
theorem sendAll_once_iff (conf : Config B) (as : List (Act B N M)) (a : Fin M) (m : BinMessage B)
    (mids : FullMessageidMap B) (s₁ s₂ s₃ s₄ : Running B N M) (id : CommId)
    (hrun : Machine.run (step conf) Running.init as = some s₁) (hcall : SendAllCall conf a m mids s₁ s₂ s₃ s₄)
    (hin : s₃.clients.clientExists id) :
    (∃ x, queued s₁ s₂ id ++ queued s₃ s₄ id = [x] ∧ x.CopyOf conf m ∧ mids[id]? = some x.id)
      ↔ (id ∈ s₁.clients.clients ↔ id ∈ s₃.clients.clients) := by
  obtain ⟨bs, hbetween, -⟩ := hcall.between
  have h₁ : s₁.Exclusive := Exclusive.run hrun
  have h₃ : s₃.Exclusive := Machine.run_invariant Exclusive (fun _ _ _ h hs => h.move (step_move hs)) bs _ _
    (h₁.move (step_move hcall.primary)) hbetween
  -- each communicator is in exactly one collection, so it is excluded when it is not primary
  have hexcluded : id ∈ s₃.clients.excluded ↔ id ∉ s₃.clients.clients :=
    ⟨fun hx hp => h₃.not_excluded hp hx, hin.resolve_left⟩
  obtain ⟨m', sended, hcopy, hret₁, hcomms₁, hsended, hret₃, hcomms₃, hmids⟩ := hcall.passes
  have hpass₁ := sendAllPass_returned hret₁ id
  have hpass₃ := sendAllPass_returned hret₃ id
  rw [← hcomms₁, ← hsended] at hpass₁
  rw [← hcomms₃] at hpass₃
  by_cases hp₁ : id ∈ s₁.clients.clients <;> by_cases hp₃ : id ∈ s₃.clients.clients
  · -- primary at both passes: the first one queues it
    rw [if_pos hp₁] at hpass₁
    rw [if_neg (fun hx => hexcluded.mp hx hp₃)] at hpass₃
    obtain ⟨x, hx, hxcopy, hxid⟩ := hpass₁
    refine iff_of_true ⟨x, ?_, hxcopy, ?_⟩ (iff_of_true hp₁ hp₃)
    · rw [queued_of_append hx, queued_of_eq hpass₃.1, List.append_nil]
    · rw [hmids, getElem?_mergeSended, hxid, Option.some_or]
  · -- taken out in between: both passes queue it
    rw [if_pos hp₁] at hpass₁
    rw [if_pos (hexcluded.mpr hp₃)] at hpass₃
    obtain ⟨x, hx, -⟩ := hpass₁
    obtain ⟨y, hy, -⟩ := hpass₃
    refine iff_of_false ?_ (fun hiff => hp₃ (hiff.mp hp₁))
    rintro ⟨z, hz, -⟩
    rw [queued_of_append hx, queued_of_append hy] at hz
    cases hz
  · -- given back in between: neither pass queues it
    rw [if_neg hp₁] at hpass₁
    rw [if_neg (fun hx => hexcluded.mp hx hp₃)] at hpass₃
    refine iff_of_false ?_ (fun hiff => hp₁ (hiff.mpr hp₃))
    rintro ⟨z, hz, -⟩
    rw [queued_of_eq hpass₁.1, queued_of_eq hpass₃.1] at hz
    cases hz
  · -- excluded at both passes: the second one queues it
    rw [if_neg hp₁] at hpass₁
    rw [if_pos (hexcluded.mpr hp₃)] at hpass₃
    obtain ⟨x, hx, hxcopy, hxid⟩ := hpass₃
    refine iff_of_true ⟨x, ?_, hcopy x hxcopy, ?_⟩ (iff_of_false hp₁ hp₃)
    · rw [queued_of_eq hpass₁.1, queued_of_append hx, List.nil_append]
    · rw [hmids, getElem?_mergeSended, hpass₁.2, Option.none_or, hxid]

/-- A connection is accepted, and thread `t` processes it and asks for the next one. -/
def connectedOne (a : Fin M) (t : Fin N) : List (Act .lp64 N M) :=
  accepted a 0 ++ List.replicate 10 (.thread t .plain)

/-- The message for everybody. -/
def toAll : BinMessage .lp64 := ⟨[0x61], 7, 0, 0, []⟩

/-- The guarantee for a call whose first pass finds the connection back in the primary collection, while the
    thread that gave it back returns. -/
theorem sendAll_once_iff_connectedOne : ∃ (s₁ s₂ s₃ s₄ : Running .lp64 1 1) (mids : FullMessageidMap .lp64),
    Machine.run (step Config.plain) Running.init (connectedOne 0 0 ++ [.thread 0 .plain, .thread 0 .plain])
        = some s₁
      ∧ SendAllCall .plain 0 toAll mids s₁ s₂ s₃ s₄ ∧ s₃.clients.clientExists 0
      ∧ ((∃ x, queued s₁ s₂ 0 ++ queued s₃ s₄ 0 = [x] ∧ x.CopyOf .plain toAll ∧ mids[0]? = some x.id)
          ↔ (0 ∈ s₁.clients.clients ↔ 0 ∈ s₃.clients.clients)) :=
  have hbetween : Act.sendAllExcluded 0 ∉ [(Act.thread 0 .plain : Act .lp64 1 1)] := by simp
  ⟨_, _, _, _, _, rfl, ⟨rfl, (fun h => by cases h), ⟨_, rfl, hbetween⟩, rfl, rfl⟩, by decide +kernel,
    sendAll_once_iff .plain (connectedOne 0 0 ++ [.thread 0 .plain, .thread 0 .plain]) 0 toAll _ _ _ _ _ 0 rfl
      ⟨rfl, (fun h => by cases h), ⟨_, rfl, hbetween⟩, rfl, rfl⟩ (by decide +kernel)⟩

/-- **`send_all` can skip a connection**: it is excluded at the first pass, and the thread gives it back before
    the second one. -/
theorem sendAll_skips : ¬ ∀ (as : List (Act .lp64 1 1)) (a : Fin 1) (m : BinMessage .lp64)
    (mids : FullMessageidMap .lp64) (s₁ s₂ s₃ s₄ : Running .lp64 1 1) (id : CommId),
    Machine.run (step Config.plain) Running.init as = some s₁ → SendAllCall .plain a m mids s₁ s₂ s₃ s₄ →
    s₁.clients.clientExists id → s₄.clients.clientExists id → (s₁.comms id).userSession = true →
    ∃ x, queued s₁ s₂ id ++ queued s₃ s₄ id = [x] ∧ x.name = m.name ∧ mids[id]? = some x.id := by
  intro hclaim
  have hbetween : Act.sendAllExcluded 0 ∉ [(Act.thread 0 .plain : Act .lp64 1 1), .thread 0 .plain] := by simp
  obtain ⟨x, hx, -⟩ := hclaim (connectedOne 0 0) 0 toAll _ _ _ _ _ 0 rfl
    ⟨rfl, (fun h => by cases h), ⟨_, rfl, hbetween⟩, rfl, rfl⟩ (by decide +kernel) (by decide +kernel) rfl
  exact List.cons_ne_nil x [] hx.symm

end Running

end Unicomm
