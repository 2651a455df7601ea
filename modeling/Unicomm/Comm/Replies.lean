import Unicomm.Comm.Outgoing
import Unicomm.Comm.Outcomes

/-!
# `Comm.Replies` — the reply to a request that is under way

A request enters `_mes_timeouts` only when a later iteration of `mt_process` handles the completion of its
write, and a reply is looked up there. `Accounted` follows every handed message to that point: what is in the
out buffers, in `_sent_messages` and in the table comes from handed messages, and a request whose completion
was handled is in the table until it is settled.

So whether a reply is delivered depends on one thing, whether its request's completion **was handled first**
(`reply_delivered_iff`). The peer may answer earlier than that (`processReply_discards`).
-/

namespace Unicomm

variable {B : Build} {conf : Config B} {ch : Choice B}

namespace Comm

/-- The identifiers tell the pushed messages apart. -/
def UniqueIds (c : Comm B) : Prop := (c.pushes.map PrepearedMessage.id).Nodup

/-- **Where the handed messages are.** -/
structure Accounted (conf : Config B) (c : Comm B) : Prop where
  queue  : ∀ m ∈ c.prepearedMQueue, m ∈ c.pushes
  handed : ∀ m ∈ c.handed, m ∈ c.pushes
  out    : ∀ (k : MessageId B) (m : PrepearedMessage B), c.outBuffers[k]? = some m → m ∈ c.handed
  sent   : ∀ it ∈ c.sentMessages, ∃ m ∈ c.handed, m.id = it.mid ∧ m.name = it.name
  table  : ∀ (mid : MessageId B) (info : MessageTimeoutInfo), c.mesTimeouts[mid]? = some info →
             .messageSent mid ∈ c.history ∧ ∃ m ∈ c.handed, m.id = mid ∧ m.name = info.name
  report : ∀ mid, .messageSent mid ∈ c.history → ∃ m ∈ c.handed, m.id = mid
  /-- A request whose completion was handled waits for its reply until it is settled. -/
  waits  : conf.timeoutsEnabled = true → c.UniqueIds →
             ∀ m ∈ c.handed, conf.needReply m.name = true → .messageSent m.id ∈ c.history →
               c.mesTimeouts.contains m.id = true ∨ ∃ e ∈ c.history, e.settles m.id = true

instance (c : Comm B) : Decidable c.UniqueIds :=
  inferInstanceAs (Decidable (c.pushes.map PrepearedMessage.id).Nodup)

theorem UniqueIds.eq {c : Comm B} (h : c.UniqueIds) {a b : PrepearedMessage B} (ha : a ∈ c.pushes)
    (hb : b ∈ c.pushes) (hid : a.id = b.id) : a = b := List.inj_on_of_nodup_map h ha hb hid

theorem Accounted.create (conf : Config B) (id : CommId) : (Comm.create id : Comm B).Accounted conf where
  queue _ h       := absurd h List.not_mem_nil
  handed _ h      := absurd h List.not_mem_nil
  out _ _ h       := by rw [show (Comm.create id : Comm B).outBuffers = ∅ from rfl] at h; simp at h
  sent _ h        := absurd h List.not_mem_nil
  table _ _ h     := by rw [show (Comm.create id : Comm B).mesTimeouts = ∅ from rfl] at h; simp at h
  report _ h      := absurd h List.not_mem_nil
  waits _ _ _ h   := absurd h List.not_mem_nil

/-! ## What keeps the account -/

/-- **The rule for everything but pushes and writes.** What is new in the history must account for what is
    new in the table, and what is no longer in the table must have been settled. -/
theorem Accounted.update {c c' : Comm B} (h : c.Accounted conf) (es : List (Event B))
    (hh : c'.history = c.history ++ es) (hsame : SameOutgoing c c')
    (hout : ∀ (k : MessageId B) (m : PrepearedMessage B), c'.outBuffers[k]? = some m → c.outBuffers[k]? = some m)
    (hsent : ∀ it ∈ c'.sentMessages, ∃ m ∈ c.handed, m.id = it.mid ∧ m.name = it.name)
    (htable : ∀ (mid : MessageId B) (info : MessageTimeoutInfo), c'.mesTimeouts[mid]? = some info →
      c.mesTimeouts[mid]? = some info
        ∨ (.messageSent mid ∈ es ∧ ∃ m ∈ c.handed, m.id = mid ∧ m.name = info.name))
    (hreport : ∀ mid, .messageSent mid ∈ es → ∃ m ∈ c.handed, m.id = mid)
    (hnew : conf.timeoutsEnabled = true → c.UniqueIds → ∀ m ∈ c.handed, conf.needReply m.name = true →
      .messageSent m.id ∈ es → c'.mesTimeouts.contains m.id = true)
    (hkept : ∀ mid, c.mesTimeouts.contains mid = true →
      c'.mesTimeouts.contains mid = true ∨ ∃ e ∈ es, e.settles mid = true) : c'.Accounted conf := by
  obtain ⟨hpushes, hhanded, hqueue⟩ := hsame
  constructor
  · -- queue
    rw [hqueue, hpushes]; exact h.queue
  · -- handed
    rw [hhanded, hpushes]; exact h.handed
  · -- out
    rw [hhanded]; exact fun k m hm => h.out k m (hout k m hm)
  · -- sent
    rw [hhanded]; exact hsent
  · -- table
    intro mid info hinfo
    rw [hhanded, hh, List.mem_append]
    rcases htable mid info hinfo with hold | ⟨hmem, hm⟩
    · obtain ⟨hmem, hm⟩ := h.table mid info hold
      exact ⟨.inl hmem, hm⟩
    · exact ⟨.inr hmem, hm⟩
  · -- report
    intro mid hmid
    rw [hh, List.mem_append] at hmid
    rw [hhanded]
    exact hmid.elim (h.report mid) (hreport mid)
  · -- waits
    intro hto huniq m hm hneed hmid
    rw [UniqueIds, hpushes] at huniq
    rw [hhanded] at hm
    rw [hh, List.mem_append] at hmid
    have hmore : (∃ e ∈ c.history ++ es, e.settles m.id = true) → ∃ e ∈ c'.history, e.settles m.id = true :=
      fun he => by rw [hh]; exact he
    rcases hmid with hmid | hmid
    · rcases h.waits hto huniq m hm hneed hmid with hin | ⟨e, he, hset⟩
      · refine (hkept m.id hin).imp_right (fun ⟨e, he, hset⟩ => hmore ⟨e, ?_, hset⟩)
        exact List.mem_append_right _ he
      · exact .inr (hmore ⟨e, List.mem_append_left _ he, hset⟩)
    · exact .inl (hnew hto huniq m hm hneed hmid)

/-- Changes that only lengthen the history by events that report no sent message. -/
theorem Accounted.extend {c c' : Comm B} (h : c.Accounted conf) (es : List (Event B))
    (hh : c'.history = c.history ++ es) (hsame : SameOutgoing c c') (hsent : ∀ mid, .messageSent mid ∉ es)
    (ho : c'.outBuffers = c.outBuffers) (hs : c'.sentMessages = c.sentMessages)
    (ht : c'.mesTimeouts = c.mesTimeouts) : c'.Accounted conf :=
  h.update es hh hsame (fun _ _ hm => by rwa [ho] at hm) (by rw [hs]; exact h.sent)
    (fun _ _ hm => .inl (by rwa [ht] at hm)) (fun mid hmid => absurd hmid (hsent mid))
    (fun _ _ m _ _ hmid => absurd hmid (hsent m.id)) (fun _ hmid => .inl (by rwa [ht]))

/-- An outcome takes its entry out of the table. -/
theorem Accounted.settle {c c' : Comm B} (h : c.Accounted conf) {mid : MessageId B} {e : Event B}
    (hh : c'.history = c.history ++ [e]) (hsame : SameOutgoing c c') (he : ∀ k, e ≠ .messageSent k)
    (hset : e.settles mid = true) (ho : c'.outBuffers = c.outBuffers) (hs : c'.sentMessages = c.sentMessages)
    (ht : c'.mesTimeouts = c.mesTimeouts.erase mid) : c'.Accounted conf := by
  have hnosent : ∀ k, .messageSent k ∉ [e] := fun k hk => he k (List.mem_singleton.mp hk).symm
  refine h.update [e] hh hsame (fun _ _ hm => by rwa [ho] at hm) (by rw [hs]; exact h.sent)
    (fun k info hk => .inl ?_)
    (fun k hk => absurd hk (hnosent k)) (fun _ _ m _ _ hk => absurd hk (hnosent m.id)) (fun k hk => ?_)
  · rw [ht, Std.ExtTreeMap.getElem?_erase] at hk
    split at hk
    · cases hk
    · exact hk
  · by_cases hkm : mid = k
    · exact .inr ⟨e, List.mem_cons_self, by rw [← hkm]; exact hset⟩
    · left
      rw [ht, Table.contains_erase, hk, decide_eq_false hkm]
      rfl

/-- A handled completion enters the table if a reply is expected. -/
theorem Accounted.regSent {c : Comm B} (h : c.Accounted conf) {it : SentMessageInfo B}
    {sent : List (SentMessageInfo B)} (hsent : c.sentMessages = it :: sent) :
    ((c.regSent conf ch it sent).log [.messageSent it.mid]).Accounted conf := by
  obtain ⟨x, hx, hxid, hxname⟩ := h.sent it (by rw [hsent]; exact List.mem_cons_self)
  have hrest : ∀ it' ∈ sent, ∃ m ∈ c.handed, m.id = it'.mid ∧ m.name = it'.name :=
    fun it' hit => h.sent it' (by rw [hsent]; exact List.mem_cons_of_mem it hit)
  have hsame : SameOutgoing c ((c.regSent conf ch it sent).log [.messageSent it.mid]) :=
    (regSent_sameOutgoing c it sent).trans (sameOutgoing_log (e := .messageSent it.mid) rfl rfl rfl rfl)
  have hid : ∀ {k : MessageId B} {pre : List (Event B)}, (∀ e ∈ pre, e ≠ .messageSent k) →
      .messageSent k ∈ pre ++ [.messageSent it.mid] → k = it.mid := by
    intro k pre hpre hk
    rcases List.mem_append.mp hk with hk | hk
    · exact absurd rfl (hpre _ hk)
    · exact Event.messageSent.inj (List.mem_singleton.mp hk)
  rw [Comm.regSent] at hsame ⊢
  by_cases hreg : (conf.timeoutsEnabled && conf.needReply it.name) = true
  · rw [if_pos hreg] at hsame ⊢
    have hpre : ∀ k, ∀ e ∈ [Event.registered it.mid], e ≠ .messageSent k := fun k e he => by
      rw [List.mem_singleton.mp he]; exact fun hc => by cases hc
    refine h.update ([.registered it.mid] ++ [.messageSent it.mid]) ?_ hsame (fun _ _ hm => hm) hrest
      (fun k info hk => ?_) (fun k hk => ⟨x, hx, by rw [hxid, hid (hpre k) hk]⟩) (fun _ _ m _ _ hk => ?_)
      (fun k hk => .inl ?_)
    · exact List.append_assoc c.history _ _
    · -- the entry looked up is the new one, or was there before
      change (c.mesTimeouts.insert it.mid _)[k]? = some info at hk
      rw [Table.getElem?_insert] at hk
      split at hk
      · next hkid =>
          cases hk
          exact .inr ⟨by rw [← hkid]; simp, x, hx, by rw [hxid, hkid], hxname⟩
      · exact .inl hk
    · rw [hid (hpre m.id) hk]
      change (c.mesTimeouts.insert it.mid _).contains it.mid = true
      rw [Table.contains_insert, decide_eq_true rfl]
      rfl
    · change (c.mesTimeouts.insert it.mid _).contains k = true
      rw [Std.ExtTreeMap.contains_insert, hk, Bool.or_true]
  · rw [if_neg hreg] at hsame ⊢
    refine h.update ([] ++ [.messageSent it.mid]) rfl hsame (fun _ _ hm => hm) hrest (fun _ _ hk => .inl hk)
      (fun k hk => ⟨x, hx, by rw [hxid, hid (by simp) hk]⟩) (fun hto huniq m hm hneed hk => ?_)
      (fun _ hk => .inl hk)
    -- the message that was reported is this one, and it needs no reply
    have hmx : m = x := huniq.eq (h.handed m hm) (h.handed x hx) (by rw [hxid, hid (by simp) hk])
    exact absurd (by rw [hto, ← hxname, ← hmx, hneed]; rfl) hreg

/-- A push adds to the pushed messages and to the queue. -/
theorem Accounted.push {c : Comm B} (h : c.Accounted conf) (m : PrepearedMessage B) :
    (c.pushPrepearedMessage m).Accounted conf := by
  have hmore : ∀ x ∈ c.pushes, x ∈ (c.pushPrepearedMessage m).pushes := fun x hx => by
    rw [pushPrepearedMessage_pushes]; exact List.mem_append_left [m] hx
  have hreport : ∀ mid, .messageSent mid ∈ (c.pushPrepearedMessage m).history ↔ .messageSent mid ∈ c.history :=
    fun mid => by simp [pushPrepearedMessage, log]
  constructor
  · -- queue
    intro x hx
    rcases (PriorityQueue.mem_push PrepearedMessage.priority).mp hx with rfl | hx
    · rw [pushPrepearedMessage_pushes]; exact List.mem_append_right _ List.mem_cons_self
    · exact hmore x (h.queue x hx)
  · -- handed
    rw [pushPrepearedMessage_handed]; exact fun x hx => hmore x (h.handed x hx)
  · -- out
    rw [pushPrepearedMessage_handed]; exact h.out
  · -- sent
    rw [pushPrepearedMessage_handed]; exact h.sent
  · -- table
    rw [pushPrepearedMessage_handed]
    intro mid info hinfo
    rw [hreport]
    exact h.table mid info hinfo
  · -- report
    rw [pushPrepearedMessage_handed]
    exact fun mid hmid => h.report mid ((hreport mid).mp hmid)
  · -- waits
    rw [pushPrepearedMessage_handed]
    intro hto huniq x hx hneed hmid
    rw [UniqueIds, pushPrepearedMessage_pushes, List.map_append] at huniq
    refine (h.waits hto (List.nodup_append.mp huniq).1 x hx hneed ((hreport x.id).mp hmid)).imp_right ?_
    rintro ⟨e, he, hset⟩
    exact ⟨e, List.mem_append_left _ he, hset⟩

/-- **Every effect keeps the account.** -/
theorem Accounted.effect {c c' : Comm B} (he : Effect conf ch c c') (h : c.Accounted conf) :
    c'.Accounted conf := by
  have hsame : (∃ m, c' = c.pushPrepearedMessage m) ∨ SameOutgoing c c' := he.outgoing
  rcases hsame with ⟨m, rfl⟩ | hsame
  · exact h.push m
  cases he with
  | sent _ hsent => exact h.regSent hsent
  | @reply _ m hm req hreq =>
      exact h.settle (e := .messageArrived m) rfl hsame (fun k hk => by cases hk)
        (by simp [Event.settles, Event.isReplyTo, hm]) rfl rfl rfl
  | @timeout _ mid =>
      exact h.settle (e := .messageTimeout mid) rfl hsame (fun k hk => by cases hk)
        (by simp [Event.settles, Event.isTimeoutOf]) rfl rfl rfl
  | connected => exact h.extend [.connected] rfl hsame (by simp) rfl rfl rfl
  | ctorThrew => exact h.extend [.sessionCtorThrew] rfl hsame (by simp) rfl rfl rfl
  | drawn => exact h.extend [.drawn c.newMid.1] rfl hsame (by simp) rfl rfl rfl
  | @request _ m => exact h.extend [.messageArrived m] rfl hsame (by simp) rfl rfl rfl
  | @discarded m => exact h.extend [.discarded m.rid] rfl hsame (by simp) rfl rfl rfl
  | pushed _ m => exact h.push m
  | afterProcessed => exact h.extend [.afterProcessed] rfl hsame (by simp) rfl rfl rfl
  | nullSession | taken | clearUpdated | channelError =>
      exact h.extend [] (List.append_nil _).symm hsame (by simp) rfl rfl rfl
  | handshakeError =>
      exact h.extend [] (by simp) hsame (by simp) (by simp) (by simp) (by simp)

/-- The environment keeps it: sends push, completions move messages on. -/
theorem Accounted.envStep {c c' : Comm B} {e : EnvAct B} (h : c.Accounted conf)
    (hstep : c.envStep conf e = some c') : c'.Accounted conf := by
  rcases envStep_cases hstep with ⟨m, rfl, rfl⟩ | hno
  · refine prepareToWrite_invariant m h ?_ (fun d p hd => hd.push p)
    exact h.extend [.drawn c.newMid.1] rfl (newMid_sameOutgoing c) (by simp) rfl rfl rfl
  · obtain ⟨_, _, ht, mids, hh⟩ := envStep_frame hstep hno
    have hsame := envStep_sameOutgoing hstep hno
    have hnosent : ∀ k, .messageSent k ∉ mids.map (Event.writeFailed (B := B)) := by simp
    have hout : (∀ (k : MessageId B) (m : PrepearedMessage B), c'.outBuffers[k]? = some m → c.outBuffers[k]? = some m)
        ∧ ∀ it ∈ c'.sentMessages, ∃ m ∈ c.handed, m.id = it.mid ∧ m.name = it.name := by
      rcases envStep_out hstep hno with ⟨ho, hs⟩ | ⟨error, k, ho, hs⟩
      · rw [ho, hs]
        exact ⟨fun _ _ hm => hm, h.sent⟩
      · rw [ho, hs]
        constructor
        · intro k' m hm
          rw [Std.ExtTreeMap.getElem?_erase] at hm
          split at hm
          · cases hm
          · exact hm
        · intro it hit
          rcases List.mem_append.mp hit with hit | hit
          · exact h.sent it hit
          · obtain ⟨m, hm, rfl⟩ := List.mem_map.mp hit
            split at hm
            · exact absurd hm (by simp)
            · exact ⟨m, h.out k m (Option.mem_toList.mp hm), rfl, rfl⟩
    exact h.update (mids.map .writeFailed) hh hsame hout.1 hout.2 (fun _ _ hm => .inl (by rwa [ht] at hm))
      (fun k hk => absurd hk (hnosent k)) (fun _ _ m _ _ hk => absurd hk (hnosent m.id))
      (fun _ hk => .inl (by rwa [ht]))

/-- Writing a message that is in the queue hands it over. -/
theorem Accounted.popAndWrite {c : Comm B} {m : PrepearedMessage B} (h : c.Accounted conf)
    (hm : m ∈ c.prepearedMQueue) : (c.popAndWrite m).Accounted conf := by
  have hpushes : (c.popAndWrite m).pushes = c.pushes := by
    rw [Comm.popAndWrite, pushes_log]; exact List.append_nil _
  have hhanded : (c.popAndWrite m).handed = c.handed ++ [m] := handed_log _ _
  have hmore : ∀ x ∈ c.handed, x ∈ (c.popAndWrite m).handed :=
    fun x hx => by rw [hhanded]; exact List.mem_append_left [m] hx
  have hreport : ∀ mid, .messageSent mid ∈ (c.popAndWrite m).history ↔ .messageSent mid ∈ c.history :=
    fun mid => by simp
  constructor
  · -- queue
    rw [hpushes]
    exact fun x hx => h.queue x (List.mem_of_mem_tail hx)
  · -- handed
    rw [hpushes, hhanded]
    intro x hx
    rcases List.mem_append.mp hx with hx | hx
    · exact h.handed x hx
    · rw [List.mem_singleton.mp hx]; exact h.queue m hm
  · -- out
    intro k x hx
    change (c.outBuffers.insertIfNew c.internalMid m)[k]? = some x at hx
    rw [Std.ExtTreeMap.getElem?_insertIfNew] at hx
    split at hx
    · cases hx; rw [hhanded]; exact List.mem_append_right _ List.mem_cons_self
    · exact hmore x (h.out k x hx)
  · -- sent
    intro it hit
    obtain ⟨x, hx, hid⟩ := h.sent it hit
    exact ⟨x, hmore x hx, hid⟩
  · -- table
    intro mid info hinfo
    obtain ⟨hmem, x, hx, hid⟩ := h.table mid info hinfo
    exact ⟨(hreport mid).mpr hmem, x, hmore x hx, hid⟩
  · -- report
    intro mid hmid
    obtain ⟨x, hx, hid⟩ := h.report mid ((hreport mid).mp hmid)
    exact ⟨x, hmore x hx, hid⟩
  · -- waits
    intro hto huniq x hx hneed hmid
    rw [UniqueIds, hpushes] at huniq
    have hold : x ∈ c.handed := by
      rw [hhanded] at hx
      rcases List.mem_append.mp hx with hx | hx
      · exact hx
      · -- it was handed over, completed and reported before: the same message was written twice
        obtain ⟨y, hy, hyid⟩ := h.report x.id ((hreport x.id).mp hmid)
        rw [List.mem_singleton.mp hx] at hyid ⊢
        rw [← UniqueIds.eq huniq (h.handed y hy) (h.queue m hm) hyid]
        exact hy
    refine (h.waits hto huniq x hold hneed ((hreport x.id).mp hmid)).imp_right ?_
    rintro ⟨e, he, hset⟩
    exact ⟨e, List.mem_append_left _ he, hset⟩

/-! ## What becomes of a decoded reply -/

/-- `process_received` calls the message arrived handler, whatever happens then. -/
theorem processReceived_arrived {c : Comm B} (hs : c.userSession = true) (m : BinMessage B) :
    .messageArrived m ∈ (processReceived conf ch m c).2.history := by
  have hs' : (c.offerMid conf).2.userSession = true := by rw [offerMid_userSession, hs]
  have hmem : Event.messageArrived m ∈ ((c.offerMid conf).2.log [.messageArrived m]).history :=
    List.mem_append_right _ List.mem_cons_self
  rw [processReceived, ← offerMid]
  simp only [callHandler, if_pos hs']
  cases ch.handler 0 with
  | some e => exact hmem
  | none =>
      simp only [andThen]
      cases ch.reply (c.offerMid conf).1 with
      | none => exact hmem
      | some outm =>
          have hsess : ((c.offerMid conf).2.log [.messageArrived m]).userSession = true := hs'
          have hsent : Effects conf ch ((c.offerMid conf).2.log [.messageArrived m]) _ :=
            prepareToWrite_effects hsess (makeReply conf (c.offerMid conf).1 m outm)
          simp only
          split <;> exact hsent.history_prefix.subset hmem

/-- The request waits for its reply exactly when its completion was handled and it has had no outcome. -/
theorem Accounted.getElem?_eq {c : Comm B} (h : c.Accounted conf) (hto : conf.timeoutsEnabled = true)
    (huniq : c.UniqueIds) {r : PrepearedMessage B} (hr : r ∈ c.handed) (hneed : conf.needReply r.name = true)
    (hopen : ∀ e ∈ c.history, e.settles r.id = false) :
    if .messageSent r.id ∈ c.history then ∃ info, c.mesTimeouts[r.id]? = some info ∧ info.name = r.name
    else c.mesTimeouts[r.id]? = none := by
  split
  · next hsent =>
      rcases h.waits hto huniq r hr hneed hsent with hin | ⟨e, he, hset⟩
      · rw [Std.ExtTreeMap.contains_eq_isSome_getElem?, Option.isSome_iff_exists] at hin
        obtain ⟨info, hinfo⟩ := hin
        obtain ⟨_, x, hx, hxid, hxname⟩ := h.table r.id info hinfo
        have hxr : x = r := huniq.eq (h.handed x hx) (h.handed r hr) hxid
        exact ⟨info, hinfo, by rw [← hxname, hxr]⟩
      · rw [hopen e he] at hset; cases hset
  · next hsent =>
      refine Option.eq_none_iff_forall_ne_some.mpr (fun info hinfo => hsent (h.table r.id info hinfo).1)

end Comm

/-! ## Runs -/

namespace System

/-- Every reachable state accounts for its handed messages. -/
theorem accounted {id : CommId} {as : List (Act B)} {s : System B}
    (hrun : Machine.run (System.step conf) (System.init id) as = some s) : s.comm.Accounted conf := by
  refine (Machine.run_invariant (fun s => s.Inv ∧ s.comm.Accounted conf) (fun s a s' hi hs => ?_) as _ _
    ⟨.init id, .create conf id⟩ hrun).2
  refine ⟨hi.1.step hs, ?_⟩
  rcases step_cases conf hi.1.session hs with ⟨e, c, -, hc, rfl⟩ | ⟨-, -, rfl⟩ | ⟨ch, m, -, hm, rfl⟩
    | ⟨ch, st, -, -, -, heff, -⟩
  · exact hi.2.envStep hc
  · exact hi.2
  · exact hi.2.popAndWrite (hi.1.copied m hm)
  · exact heff.invariant (fun _ _ he h => h.effect he) hi.2

/-- The next step decodes `m`: the thread inside `mt_process` is in the loop of `mt_process_arrived`, and
    `perform_decode` gives `m`. -/
structure Decodes (conf : Config B) (ch : Choice B) (s : System B) (m : BinMessage B) : Prop where
  stage   : s.proc = some .decode
  updated : s.comm.inBufferUpdated = true
  time    : ch.elapsed = false
  decoded : (Comm.mtPerformDecode conf s.comm).1 = .ok (some m)

/-- Request `r` was handed to the socket, needs a reply, and has had neither a reply nor a timeout. -/
structure Outstanding (conf : Config B) (c : Comm B) (r : PrepearedMessage B) : Prop where
  handed    : r ∈ c.handed
  needReply : conf.needReply r.name = true
  unsettled : ∀ e ∈ c.history, e.settles r.id = false

/-- The step that decodes `m` processes it on a communicator that has a session and is otherwise as before. -/
theorem Decodes.step {s s' : System B} {m : BinMessage B} (hdec : s.Decodes conf ch m)
    (hs : System.step conf s (.stage ch) = some s') :
    ∃ c, c.userSession = true ∧ c.mesTimeouts = s.comm.mesTimeouts ∧ c.history = s.comm.history
      ∧ s'.comm = (Comm.processIncoming conf ch m c).2 := by
  have hsess : s.comm.userSession = true := by
    by_contra hno
    have hthrow := hdec.decoded
    rw [Comm.mtPerformDecode, if_neg hno] at hthrow
    cases hthrow
  refine ⟨(Comm.mtPerformDecode conf s.comm).2, ?_, ?_, ?_, ?_⟩
  · rw [Comm.mtPerformDecode_userSession, hsess]
  · rw [Comm.mtPerformDecode, if_pos hsess]
  · rw [Comm.mtPerformDecode, if_pos hsess]
  · have hdecoded := hdec.decoded
    rw [System.step, hdec.stage] at hs
    cases hs
    simp only [Comm.runStage, hdec.updated, hdec.time, Bool.not_false, Bool.and_self, if_true]
    rcases hr : Comm.mtPerformDecode conf s.comm with ⟨e | _ | m', c⟩ <;> rw [hr] at hdecoded <;> cases hdecoded
    simp only [Comm.proceed_fst]

/-- **A reply to an outstanding request is delivered if and only if the completion of the request's write was
    handled before**, and thrown away otherwise. In every run with timeouts enabled and unique message
    identifiers: an allowed reply to a request that was handed to the socket and had no outcome yet is passed
    to the message arrived handler exactly when `mt_process_sent` has reported the request as sent. -/
theorem reply_delivered_iff (conf : Config B) (id : CommId) (as : List (Act B)) (s s' : System B)
    (ch : Choice B) (m : BinMessage B) (r : PrepearedMessage B)
    (hrun : Machine.run (System.step conf) (System.init id) as = some s)
    (hto : conf.timeoutsEnabled = true) (huniq : s.comm.UniqueIds) (hreq : Outstanding conf s.comm r)
    (hm : m.ridExists = true) (hrid : m.rid = r.id) (hallowed : conf.isAllowedReply r.name m.name = true)
    (hdec : s.Decodes conf ch m) (hs : System.step conf s (.stage ch) = some s') :
    (.messageArrived m ∈ s'.comm.history ↔ .messageSent r.id ∈ s.comm.history)
      ∧ (s'.comm.history = s.comm.history ++ [.discarded r.id] ↔ .messageSent r.id ∉ s.comm.history) := by
  obtain ⟨c, hsess, htable, hhist, hs'⟩ := hdec.step hs
  have hnew : Event.messageArrived m ∉ s.comm.history := fun hmem => by
    have hset := hreq.unsettled _ hmem
    simp [Event.settles, Event.isReplyTo, hm, hrid] at hset
  have hentry := (accounted hrun).getElem?_eq hto huniq hreq.handed hreq.needReply hreq.unsettled
  rw [Comm.processIncoming, if_pos hm, Comm.processReply, htable, hrid] at hs'
  -- the entry is in the table exactly after the completion was handled
  by_cases hsent : Event.messageSent r.id ∈ s.comm.history
  · rw [if_pos hsent] at hentry
    obtain ⟨info, hinfo, hname⟩ := hentry
    rw [hinfo] at hs'
    simp only [hname, if_pos hallowed] at hs'
    have harrived : Event.messageArrived m ∈ s'.comm.history := by
      rw [hs']
      exact Comm.processReceived_arrived (c := c.unregMessageTimeout r.id) hsess m
    refine ⟨⟨fun _ => hsent, fun _ => harrived⟩, ⟨fun heq => ?_, fun hno => absurd hsent hno⟩⟩
    rw [heq, List.mem_append] at harrived
    rcases harrived with hold | hdisc
    · exact absurd hold hnew
    · cases List.mem_singleton.mp hdisc
  · rw [if_neg hsent] at hentry
    rw [hentry] at hs'
    have hdisc : s'.comm.history = s.comm.history ++ [.discarded r.id] := by
      rw [hs', Comm.log, hhist]
    refine ⟨⟨fun hmem => ?_, fun h => absurd h hsent⟩, ⟨fun _ => hsent, fun _ => hdisc⟩⟩
    rw [hdisc, List.mem_append] at hmem
    rcases hmem with hold | hmem
    · exact absurd hold hnew
    · cases List.mem_singleton.mp hmem

/-- Request `a`, as it is queued under the identifier 1. -/
def request : PrepearedMessage .lp64 := ⟨1, [0x61], 0, [0, 12, 1, 0x61, 1, 0, 0, 0, 0, 0, 0, 0, 0xff]⟩

/-- Message `b`, the reply to it. -/
def reply : BinMessage .lp64 := ⟨[0x62], 0, 1, 0, []⟩

/-- The request is sent and one iteration of `mt_process` starts its write, all of which is transferred. -/
def asked : List (Act .lp64) :=
  [.env .connectSuccess, .enter, .stage .plain, .env (.send ⟨[0x61], 0, 0, 0, []⟩), .stage .plain,
    .stage .plain, .stage .plain, .stage .plain, .stage .plain, .stage .plain, .stage .plain, .stage .plain,
    .env (.writeSome 0 13)]

/-- The reply is read, and the next iteration gets to decoding it. -/
def replyRead : List (Act .lp64) :=
  [.env (.readAppend [0, 12, 2, 0x62, 1, 0, 0, 0, 0, 0, 0, 0, 0xff]), .env .readUpdated, .enter,
    .stage .plain, .stage .plain, .stage .plain]

/-- The write completes before that iteration, so it handles the completion first: the reply is delivered. -/
theorem reply_delivered_iff_handled : ∃ s s',
    Machine.run (System.step Config.asking) (System.init 1) (asked ++ .env (.writeDone 0) :: replyRead) = some s
      ∧ System.step Config.asking s (.stage .plain) = some s'
      ∧ (.messageArrived reply ∈ s'.comm.history ↔ .messageSent request.id ∈ s.comm.history)
      ∧ (s'.comm.history = s.comm.history ++ [.discarded request.id]
          ↔ .messageSent request.id ∉ s.comm.history) :=
  ⟨_, _, rfl, rfl, reply_delivered_iff .asking 1 (asked ++ .env (.writeDone 0) :: replyRead) _ _ .plain reply
    request rfl rfl (by decide +kernel) ⟨by decide +kernel, rfl, by decide +kernel⟩ rfl rfl rfl
    ⟨rfl, rfl, rfl, rfl⟩ rfl⟩

/-- **A reply that is decoded before the completion of its request is handled is thrown away**: the peer
    answers as soon as it has the bytes, and `asio` has not called the write handler yet. -/
theorem processReply_discards : ¬ ∀ (as : List (Act .lp64)) (s s' : System .lp64) (m : BinMessage .lp64)
    (r : PrepearedMessage .lp64), Machine.run (System.step Config.asking) (System.init 1) as = some s →
    s.comm.UniqueIds → Outstanding Config.asking s.comm r → m.ridExists = true → m.rid = r.id →
    Config.asking.isAllowedReply r.name m.name = true → s.Decodes Config.asking .plain m →
    System.step Config.asking s (.stage .plain) = some s' → .messageArrived m ∈ s'.comm.history := by
  intro hclaim
  have hmem := hclaim (asked ++ replyRead) _ _ reply request rfl (by decide +kernel)
    ⟨by decide +kernel, rfl, by decide +kernel⟩ rfl rfl rfl ⟨rfl, rfl, rfl, rfl⟩ rfl
  exact absurd hmem (by decide +kernel)

end System

end Unicomm
