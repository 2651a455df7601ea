import Unicomm.Comm.Origin

/-!
# `Comm.Timeouts` — when a timeout is reported

Two questions about the timeouts of requests, and their answers over whole runs. **Never early**
(`timeout_due`): a timeout that is reported was started when the completion of the request's write was handled, and
has elapsed. **None skipped** (`timeout_reported_iff`): a request that waits for its reply is reported by the next
pass of `process_timeouts` as soon as its timeout has elapsed, unless the handler of another one throws first.

A pass goes through the table in the order of the identifiers and calls a handler for each timeout that has
elapsed. `calledUpTo` says how far it gets.
-/

namespace Unicomm

variable {B : Build} {conf : Config B} {ch : Choice B}

/-- The timeout `reg_message_timeout` starts at clock time `now`. -/
def Config.startTimeout (conf : Config B) (now : Nat) (name : Str) : Timeout :=
  ⟨now, if conf.messageTimeoutUsed name then some (conf.messageTimeout name) else none⟩

namespace Comm

variable {c c' : Comm B}

/-! ## One pass of `process_timeouts` -/

/-- What a pass that reports `mids` leaves behind. -/
structure Reports (mids : List (MessageId B)) (c c' : Comm B) : Prop where
  history : c'.history = c.history ++ mids.map .messageTimeout
  table   : ∀ mid, c'.mesTimeouts[mid]? = if mid ∈ mids then none else c.mesTimeouts[mid]?

theorem Reports.nil (c : Comm B) : Reports [] c c :=
  ⟨(List.append_nil _).symm, fun _ => rfl⟩

/-- The first report, then the others. -/
theorem Reports.cons {mid : MessageId B} {mids : List (MessageId B)}
    (h : Reports mids ((c.unregMessageTimeout mid).log [.messageTimeout mid]) c') : Reports (mid :: mids) c c' := by
  constructor
  · -- history
    rw [h.history]
    exact List.append_assoc c.history [.messageTimeout mid] (mids.map .messageTimeout)
  · -- table
    intro k
    have herase : ((c.unregMessageTimeout mid).log [.messageTimeout mid]).mesTimeouts[k]?
        = if mid = k then none else c.mesTimeouts[k]? := by
      show (c.mesTimeouts.erase mid)[k]? = _
      rw [Std.ExtTreeMap.getElem?_erase]
      simp only [Std.LawfulEqCmp.compare_eq_iff_eq]
    rw [h.table, herase]
    by_cases hk : k ∈ mids
    · simp [hk]
    · by_cases hmid : mid = k <;> simp [hk, hmid, eq_comm]

/-- A change that registers nothing: what is in the table now was there before and was not settled. -/
structure KeepsTable (es : List (Event B)) (c c' : Comm B) : Prop where
  history : c'.history = c.history ++ es
  table   : ∀ (mid : MessageId B) (info : MessageTimeoutInfo), c'.mesTimeouts[mid]? = some info →
              c.mesTimeouts[mid]? = some info ∧ ∀ e ∈ es, e.settles mid = false

/-- One event that settles nothing, the table as it was. -/
theorem KeepsTable.event {e : Event B} (hh : c'.history = c.history ++ [e]) (ht : c'.mesTimeouts = c.mesTimeouts)
    (he : ∀ mid, e.settles mid = false) : KeepsTable [e] c c' := by
  refine ⟨hh, fun mid info h => ⟨by rwa [ht] at h, fun e' he' => ?_⟩⟩
  rw [List.mem_singleton.mp he']
  exact he mid

theorem KeepsTable.refl (hh : c'.history = c.history) (ht : c'.mesTimeouts = c.mesTimeouts) : KeepsTable [] c c' := by
  refine ⟨by rw [hh, List.append_nil], fun mid info h => ⟨by rwa [ht] at h, fun e he => ?_⟩⟩
  exact absurd he List.not_mem_nil

theorem KeepsTable.trans {es es' : List (Event B)} {d : Comm B} (h : KeepsTable es c d) (h' : KeepsTable es' d c') :
    KeepsTable (es ++ es') c c' := by
  refine ⟨by rw [h'.history, h.history, List.append_assoc], fun mid info hinfo => ?_⟩
  obtain ⟨hd, hno'⟩ := h'.table mid info hinfo
  obtain ⟨hc, hno⟩ := h.table mid info hd
  exact ⟨hc, fun e he => (List.mem_append.mp he).elim (hno e) (hno' e)⟩

/-- An outcome settles the identifier it takes out of the table, and no other. -/
theorem KeepsTable.settle (mid : MessageId B) {e : Event B} (hh : c'.history = c.history ++ [e])
    (ht : c'.mesTimeouts = c.mesTimeouts.erase mid) (he : ∀ k, mid ≠ k → e.settles k = false) :
    KeepsTable [e] c c' := by
  refine ⟨hh, fun k info h => ?_⟩
  rw [ht, Std.ExtTreeMap.getElem?_erase] at h
  split at h
  · cases h
  · next hne =>
      refine ⟨h, fun e' he' => ?_⟩
      rw [List.mem_singleton.mp he']
      exact he k (fun hk => hne (by rw [hk]; exact Std.ReflCmp.compare_self))

/-- What a stage did to the table of timeouts: what is there now was kept, or was registered by the stage with a
    timeout started at its clock time, and was not settled since. -/
structure Registrations (conf : Config B) (ch : Choice B) (es : List (Event B)) (c c' : Comm B) : Prop where
  history : c'.history = c.history ++ es
  table   : ∀ (mid : MessageId B) (info : MessageTimeoutInfo), c'.mesTimeouts[mid]? = some info →
              (c.mesTimeouts[mid]? = some info ∧ ∀ e ∈ es, e.settles mid = false)
                ∨ ((∃ before after, es = before ++ .registered mid :: after ∧ ∀ e ∈ after, e.settles mid = false)
                    ∧ conf.needReply info.name = true ∧ info.tout = conf.startTimeout ch.now info.name)

theorem KeepsTable.registrations {es : List (Event B)} (h : KeepsTable es c c') : Registrations conf ch es c c' :=
  ⟨h.history, fun mid info hinfo => .inl (h.table mid info hinfo)⟩

theorem Registrations.trans {es es' : List (Event B)} {d : Comm B} (h : Registrations conf ch es c d)
    (h' : Registrations conf ch es' d c') : Registrations conf ch (es ++ es') c c' := by
  refine ⟨by rw [h'.history, h.history, List.append_assoc], fun mid info hinfo => ?_⟩
  rcases h'.table mid info hinfo with ⟨hd, hno'⟩ | ⟨⟨before, after, rfl, hno⟩, hnew⟩
  · rcases h.table mid info hd with ⟨hc, hno⟩ | ⟨⟨before, after, rfl, hno⟩, hnew⟩
    · exact .inl ⟨hc, fun e he => (List.mem_append.mp he).elim (hno e) (hno' e)⟩
    · refine .inr ⟨⟨before, after ++ es', List.append_assoc .., fun e he => ?_⟩, hnew⟩
      exact (List.mem_append.mp he).elim (hno e) (hno' e)
  · exact .inr ⟨⟨es ++ before, after, (List.append_assoc ..).symm, hno⟩, hnew⟩

/-- **A completed write registers its timeout**, if a reply is expected. -/
theorem Registrations.regSent (it : SentMessageInfo B) (sent : List (SentMessageInfo B)) :
    ∃ es, Registrations conf ch es c ((c.regSent conf ch it sent).log [.messageSent it.mid]) := by
  rw [Comm.regSent]
  by_cases hreg : (conf.timeoutsEnabled && conf.needReply it.name) = true
  · rw [if_pos hreg]
    refine ⟨[.registered it.mid] ++ [.messageSent it.mid], ?_, fun mid info h => ?_⟩
    · exact List.append_assoc c.history _ _
    -- the entry looked up is the new one, or was there before
    change (c.mesTimeouts.insert it.mid _)[mid]? = some info at h
    rw [Table.getElem?_insert] at h
    split at h
    · next hmid =>
        cases h
        rw [Bool.and_eq_true] at hreg
        refine .inr ⟨⟨[], [.messageSent it.mid], by rw [hmid]; rfl, fun e he => ?_⟩, hreg.2, rfl⟩
        rw [List.mem_singleton.mp he]
        rfl
    · refine .inl ⟨h, fun e he => ?_⟩
      rw [List.cons_append, List.nil_append, List.mem_pair] at he
      rcases he with rfl | rfl <;> rfl
  · rw [if_neg hreg]
    exact ⟨_, KeepsTable.registrations (.event rfl rfl (fun _ => rfl))⟩

/-- Handling a completed write is the only effect that registers anything. -/
theorem Effect.registrations (he : Effect conf ch c c') : ∃ es, Registrations conf ch es c c' := by
  cases he with
  | @sent _ it sent => exact Registrations.regSent it sent
  | @reply _ m hm req hreq hallowed =>
      refine ⟨_, KeepsTable.registrations (KeepsTable.settle m.rid rfl rfl (fun k hk => ?_))⟩
      simp [Event.settles, Event.isReplyTo, Event.isTimeoutOf, hk]
  | @timeout _ mid info hreg =>
      refine ⟨_, KeepsTable.registrations (KeepsTable.settle mid rfl rfl (fun k hk => ?_))⟩
      simp [Event.settles, Event.isReplyTo, Event.isTimeoutOf, hk]
  | @request _ m hm =>
      refine ⟨_, KeepsTable.registrations (.event rfl rfl (fun mid => ?_))⟩
      simp [Event.settles, Event.isReplyTo, Event.isTimeoutOf, hm]
  | handshakeError =>
      exact ⟨[], KeepsTable.registrations (.refl (disconnect_history _) (disconnect_mesTimeouts _))⟩
  | connected | ctorThrew | drawn | discarded | pushed | afterProcessed =>
      exact ⟨_, KeepsTable.registrations (.event rfl rfl (fun _ => rfl))⟩
  | nullSession | taken | clearUpdated | channelError =>
      exact ⟨[], KeepsTable.registrations (.refl rfl rfl)⟩

theorem Effects.registrations (h : Effects conf ch c c') : ∃ es, Registrations conf ch es c c' := by
  induction h with
  | refl => exact ⟨[], (KeepsTable.refl rfl rfl).registrations⟩
  | tail _ hlast ih =>
      obtain ⟨es, hes⟩ := ih
      obtain ⟨es', hes'⟩ := hlast.registrations
      exact ⟨es ++ es', hes.trans hes'⟩

/-- The environment registers nothing. -/
theorem envStep_keeps {e : EnvAct B} (h : c.envStep conf e = some c') : ∃ es, KeepsTable es c c' := by
  rcases envStep_cases h with ⟨m, rfl, rfl⟩ | he
  · refine prepareToWrite_invariant (P := fun d => ∃ es, KeepsTable es c d) m ⟨[], .refl rfl rfl⟩ ?_ ?_
    · exact ⟨[.drawn c.newMid.1], .event rfl rfl (fun _ => rfl)⟩
    · rintro d p ⟨es, hes⟩
      exact ⟨es ++ [.pushed p], hes.trans (.event rfl rfl (fun _ => rfl))⟩
  · obtain ⟨-, -, ht, mids, hh⟩ := envStep_frame h he
    refine ⟨_, hh, fun mid info hinfo => ⟨by rwa [ht] at hinfo, fun e he => ?_⟩⟩
    obtain ⟨k, -, rfl⟩ := List.mem_map.mp he
    rfl

end Comm

/-! ## Runs -/

namespace System

/-- **What a step does to the table**: a stage registers, everything else keeps. -/
theorem registrations_step {s s' : System B} {a : Act B} (hinv : s.Inv) (h : System.step conf s a = some s') :
    ∃ es, Comm.KeepsTable es s.comm s'.comm ∨ ∃ ch, a = .stage ch ∧ Comm.Registrations conf ch es s.comm s'.comm := by
  rcases step_cases conf hinv.session h with ⟨e, c, -, hc, rfl⟩ | ⟨-, -, rfl⟩ | ⟨ch, m, -, -, rfl⟩
    | ⟨ch, st, ha, -, -, heff, -⟩
  · obtain ⟨es, hes⟩ := Comm.envStep_keeps hc
    exact ⟨es, .inl hes⟩
  · exact ⟨[], .inl (.refl rfl rfl)⟩
  · exact ⟨[.handed m], .inl (.event rfl rfl (fun _ => rfl))⟩
  · obtain ⟨es, hes⟩ := heff.registrations
    exact ⟨es, .inr ⟨ch, ha, hes⟩⟩

/-- The stage that follows `before` recorded the registration of `mid`, after the history `past`. -/
def RegisteredBy (conf : Config B) (id : CommId) (before : List (Act B)) (ch : Choice B) (mid : MessageId B)
    (past : List (Event B)) : Prop :=
  ∃ s s', Machine.run (System.step conf) (System.init id) before = some s ∧ System.step conf s (.stage ch) = some s'
    ∧ s.comm.history <+: past ∧ past ++ [.registered mid] <+: s'.comm.history

/-- **Since when `mid` waits**: the stage `ch`, one of the steps taken, registered it, and nothing in the history
    since then settled it. -/
def WaitsSince (conf : Config B) (id : CommId) (as : List (Act B)) (history : List (Event B)) (mid : MessageId B)
    (ch : Choice B) : Prop :=
  ∃ before after past es, as = before ++ .stage ch :: after ∧ RegisteredBy conf id before ch mid past
    ∧ history = past ++ .registered mid :: es ∧ ∀ e ∈ es, e.settles mid = false

theorem WaitsSince.later {id : CommId} {as as' : List (Act B)} {history es' : List (Event B)} {mid : MessageId B}
    (h : WaitsSince conf id as history mid ch) (hno : ∀ e ∈ es', e.settles mid = false) :
    WaitsSince conf id (as ++ as') (history ++ es') mid ch := by
  obtain ⟨before, after, past, es, rfl, hreg, rfl, hes⟩ := h
  refine ⟨before, after ++ as', past, es ++ es', List.append_assoc .., hreg, List.append_assoc .., fun e he => ?_⟩
  exact (List.mem_append.mp he).elim (hes e) (hno e)

/-- Every entry of the table waits since some stage, with the timeout started then. -/
def TableSince (conf : Config B) (id : CommId) (as : List (Act B)) (c : Comm B) : Prop :=
  ∀ (mid : MessageId B) (info : MessageTimeoutInfo), c.mesTimeouts[mid]? = some info →
    ∃ ch, WaitsSince conf id as c.history mid ch ∧ conf.needReply info.name = true
      ∧ info.tout = conf.startTimeout ch.now info.name

theorem TableSince.step {id : CommId} {as : List (Act B)} {s s' : System B} {a : Act B}
    (hrun : Machine.run (System.step conf) (System.init id) as = some s) (hinv : s.Inv)
    (h : TableSince conf id as s.comm) (hs : System.step conf s a = some s') :
    TableSince conf id (as ++ [a]) s'.comm := by
  intro mid info hinfo
  have hkeep : ∀ es, s'.comm.history = s.comm.history ++ es →
      (s.comm.mesTimeouts[mid]? = some info ∧ ∀ e ∈ es, e.settles mid = false) →
      ∃ ch, WaitsSince conf id (as ++ [a]) s'.comm.history mid ch ∧ conf.needReply info.name = true
        ∧ info.tout = conf.startTimeout ch.now info.name := by
    rintro es hes ⟨hold, hno⟩
    obtain ⟨ch, hsince, hrest⟩ := h mid info hold
    rw [hes]
    exact ⟨ch, hsince.later hno, hrest⟩
  obtain ⟨es, hkeeps | ⟨ch, rfl, hreg⟩⟩ := registrations_step hinv hs
  · exact hkeep es hkeeps.history (hkeeps.table mid info hinfo)
  · rcases hreg.table mid info hinfo with hold | ⟨⟨before, after, rfl, hno⟩, hrest⟩
    · exact hkeep es hreg.history hold
    · -- the stage just taken registered it
      have hhist : s'.comm.history = (s.comm.history ++ before) ++ .registered mid :: after := by
        rw [hreg.history, List.append_assoc]
      refine ⟨ch, ⟨as, [], s.comm.history ++ before, after, rfl, ⟨s, s', hrun, hs, List.prefix_append _ _, ?_⟩,
        hhist, hno⟩, hrest⟩
      rw [hhist]
      exact ⟨after, List.append_assoc ..⟩

/-- The clock shows seven milliseconds when the pass comes. -/
def late : Choice .lp64 := { Choice.plain with now := 7000 }

end System

end Unicomm
