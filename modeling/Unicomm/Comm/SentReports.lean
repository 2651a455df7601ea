import Unicomm.Comm.WriteStream
import Unicomm.Lib.Table

/-!
# `Comm.SentReports` — every successful write is reported once

A message goes from the queue into `_out_buffers`, from there into `_sent_messages` when its write completes
successfully, and from there to `call_message_sent`. The loop of `mt_process_sent` removes an entry **before**
it calls the handler, so a handler that throws has been called, and the entries behind it wait for the next
iteration.

`Accounts` puts every write in one place, given the completions so far, and `sent_reported_once` reads the result
off it. Internal identifiers count up and wrap, so a write's identifier is its position modulo their number. As long
as a write is started only under an identifier that no buffer has, no two outstanding writes have the same
(`Accounts.apart`); fewer writes than there are identifiers never meet (`guarded_of_few`).
-/

namespace Unicomm

variable {B : Build} {conf : Config B} {ch : Choice B}

/-- The identifier of a message sent notification. -/
def Event.messageSent? : Event B → Option (MessageId B)
  | .messageSent mid => some mid
  | _                => none

namespace Comm

/-- The identifiers `call_message_sent` was called with, in order. -/
def reported (c : Comm B) : List (MessageId B) := c.history.filterMap Event.messageSent?

/-- These, and then those that wait in `_sent_messages`. -/
def reports (c : Comm B) : List (MessageId B) := c.reported ++ c.sentMessages.map SentMessageInfo.mid

/-- The same reports, out buffers and counter. -/
def SameReports (c c' : Comm B) : Prop :=
  c'.reports = c.reports ∧ c'.outBuffers = c.outBuffers ∧ c'.internalMid = c.internalMid

/-- An event that is no notification. -/
theorem reported_event {c c' : Comm B} {e : Event B} (hh : c'.history = c.history ++ [e])
    (he : e.messageSent? = none) : c'.reported = c.reported :=
  filterMap_event hh he

theorem reports_event {c c' : Comm B} {e : Event B} (hh : c'.history = c.history ++ [e])
    (he : e.messageSent? = none) (hs : c'.sentMessages = c.sentMessages) : c'.reports = c.reports := by
  rw [reports, reported_event hh he, hs, ← reports]

theorem reports_congr {c c' : Comm B} (hh : c'.history = c.history) (hs : c'.sentMessages = c.sentMessages) :
    c'.reports = c.reports := by
  rw [reports, reported, hh, hs]
  rfl

theorem reported_sent (c : Comm B) (it : SentMessageInfo B) (sent : List (SentMessageInfo B)) :
    ((c.regSent conf ch it sent).log [.messageSent it.mid]).reported = c.reported ++ [it.mid] := by
  have hreg : (c.regSent conf ch it sent).reported = c.reported := by
    rw [regSent]
    split
    · exact reported_event (e := .registered it.mid) rfl rfl
    · rfl
  rw [reported, log, List.filterMap_append, ← reported, hreg]
  rfl

/-- Failed writes are no notifications. -/
theorem reported_onlyFailures {c c' : Comm B} (h : OnlyFailures c c') : c'.reported = c.reported :=
  h.filterMap_eq (fun _ => rfl)

/-- **An entry becomes a notification.** -/
theorem reports_sent {c : Comm B} {it : SentMessageInfo B} {sent : List (SentMessageInfo B)}
    (hsent : c.sentMessages = it :: sent) :
    ((c.regSent conf ch it sent).log [.messageSent it.mid]).reports = c.reports := by
  rw [reports, reported_sent, reports, hsent, List.append_assoc]
  rfl

/-- **Effects report what they remove** and leave the out buffers alone. -/
theorem Effect.sameReports {c c' : Comm B} (he : Effect conf ch c c') : SameReports c c' := by
  cases he with
  | @sent _ it sent hsent =>
      refine ⟨reports_sent hsent, ?_⟩
      rw [regSent]
      split <;> exact ⟨rfl, rfl⟩
  | connected => exact ⟨reports_event (e := .connected) rfl rfl rfl, rfl, rfl⟩
  | ctorThrew => exact ⟨reports_event (e := .sessionCtorThrew) rfl rfl rfl, rfl, rfl⟩
  | drawn => exact ⟨reports_event (e := .drawn c.newMid.1) rfl rfl rfl, rfl, rfl⟩
  | @request _ m => exact ⟨reports_event (e := .messageArrived m) rfl rfl rfl, rfl, rfl⟩
  | @reply _ m => exact ⟨reports_event (e := .messageArrived m) rfl rfl rfl, rfl, rfl⟩
  | @discarded m => exact ⟨reports_event (e := .discarded m.rid) rfl rfl rfl, rfl, rfl⟩
  | pushed _ m => exact ⟨reports_event (e := .pushed m) rfl rfl rfl, rfl, rfl⟩
  | @timeout _ mid => exact ⟨reports_event (e := .messageTimeout mid) rfl rfl rfl, rfl, rfl⟩
  | afterProcessed => exact ⟨reports_event (e := .afterProcessed) rfl rfl rfl, rfl, rfl⟩
  | nullSession | taken | clearUpdated | channelError => exact ⟨reports_congr rfl rfl, rfl, rfl⟩
  | handshakeError => rw [disconnect]; split <;> exact ⟨reports_congr rfl rfl, rfl, rfl⟩

theorem SameReports.trans {a b c : Comm B} (h₁ : SameReports a b) (h₂ : SameReports b c) : SameReports a c :=
  ⟨h₂.1.trans h₁.1, h₂.2.1.trans h₁.2.1, h₂.2.2.trans h₁.2.2⟩

/-- Neither does a send. -/
theorem send_sameReports (m : BinMessage B) (c : Comm B) : SameReports c (c.prepareToWrite conf m).comm := by
  refine prepareToWrite_invariant m ⟨rfl, rfl, rfl⟩ ?_ (fun d p hd => ?_)
  · exact ⟨reports_event (e := .drawn c.newMid.1) rfl rfl rfl, rfl, rfl⟩
  · exact hd.trans ⟨reports_event rfl rfl rfl, rfl, rfl⟩

theorem mtAsioWriteHandler_internalMid (error : Nat) (intMid : MessageId B) (c : Comm B) :
    (c.mtAsioWriteHandler error intMid).internalMid = c.internalMid := by
  rw [mtAsioWriteHandler]
  simp only
  split
  · rfl
  · rw [mtRegSentMessage]; split <;> rfl

/-- **A completion brings at most one entry.** -/
theorem mtAsioWriteHandler_reports (error : Nat) (intMid : MessageId B) (c : Comm B) :
    (c.mtAsioWriteHandler error intMid).reports
      = c.reports ++ (if error ≠ 0 then none else c.outBuffers[intMid]?).toList.map PrepearedMessage.id := by
  have hfail : OnlyFailures c (c.mtAsioWriteHandler error intMid) := (mtAsioWriteHandler_frame error intMid c).2.2.2
  rw [reports, reported_onlyFailures hfail, mtAsioWriteHandler_sentMessages, List.map_append, List.map_map,
    ← List.append_assoc]
  rfl

/-- The write a step of the environment completes, and whether it succeeded. -/
def completes? : EnvAct B → Option (Nat × Bool)
  | .writeDone i   => some (i, true)
  | .writeFail i _ => some (i, false)
  | _              => none

/-! ## Every write in one place -/

/-- The internal identifier of the write at position `k`. -/
def intMidAt (B : Build) (k : Nat) : MessageId B := BitVec.ofNat _ k

/-- **The accounts** after the completions `done`, each the position of a write and whether it succeeded. -/
structure Accounts (done : List (Nat × Bool)) (c : Comm B) : Prop where
  ids     : c.socket.writes.map AsyncWrite.intMid = (List.range c.handed.length).map (intMidAt B)
  next    : c.internalMid = intMidAt B c.handed.length
  buffers : c.socket.writes.map AsyncWrite.buffer = c.handed.map PrepearedMessage.outBuffer
  /-- A write is pending until it completes. -/
  pending : ∀ k w, c.socket.writes[k]? = some w → (w.pending = true ↔ k ∉ done.map Prod.fst)
  nodup   : (done.map Prod.fst).Nodup
  started : ∀ k ∈ done.map Prod.fst, k < c.handed.length
  /-- No two outstanding writes have the same internal identifier. -/
  apart   : ∀ k l, k < c.handed.length → l < c.handed.length → k ∉ done.map Prod.fst → l ∉ done.map Prod.fst →
    intMidAt B k = intMidAt B l → k = l
  /-- The message of a write is in the out buffers until it completes, -/
  out     : ∀ k < c.handed.length, k ∉ done.map Prod.fst → c.outBuffers[intMidAt B k]? = c.handed[k]?
  /-- and nothing else is there. -/
  only    : ∀ key ∈ c.outBuffers, ∃ k < c.handed.length, k ∉ done.map Prod.fst ∧ intMidAt B k = key
  /-- The messages of the successful writes are those reported, or waiting to be. -/
  reports : (done.filter Prod.snd).map (fun p => (c.handed[p.1]?).map PrepearedMessage.id) = c.reports.map some

namespace Accounts

variable {done : List (Nat × Bool)} {c c' : Comm B}

theorem create (id : CommId) : Accounts [] (Comm.create id : Comm B) where
  ids     := rfl
  next    := rfl
  buffers := rfl
  pending := fun _ _ h => by cases h
  nodup   := List.nodup_nil
  started := fun _ h => absurd h List.not_mem_nil
  apart   := fun _ _ h => absurd h (Nat.not_lt_zero _)
  out     := fun _ h => absurd h (Nat.not_lt_zero _)
  only    := fun _ h => absurd h Std.ExtTreeMap.not_mem_empty
  reports := rfl

theorem congr (h : Accounts done c) (hreports : SameReports c c') (hwire : SameWire c c') : Accounts done c' := by
  obtain ⟨hr, ho, hn⟩ := hreports
  obtain ⟨hhanded, hwrites, -⟩ := hwire
  exact ⟨by rw [hwrites, hhanded, h.ids], by rw [hn, hhanded, h.next], by rw [hwrites, hhanded, h.buffers],
    by rw [hwrites]; exact h.pending, h.nodup, by rw [hhanded]; exact h.started, by rw [hhanded]; exact h.apart,
    by rw [ho, hhanded]; exact h.out, by rw [ho, hhanded]; exact h.only, by rw [hhanded, hr]; exact h.reports⟩

/-- Every handed message has its write. -/
theorem length_writes (h : Accounts done c) : c.socket.writes.length = c.handed.length := by
  rw [← List.length_map (f := AsyncWrite.intMid), h.ids, List.length_map, List.length_range]

/-- The internal identifier of a write. -/
theorem intMid_eq (h : Accounts done c) {k : Nat} {w : AsyncWrite B} (hw : c.socket.writes[k]? = some w) :
    w.intMid = intMidAt B k ∧ k < c.handed.length := by
  have hk : k < c.handed.length := by
    rw [← h.length_writes]
    exact (List.getElem?_eq_some_iff.mp hw).1
  have hid : (c.socket.writes.map AsyncWrite.intMid)[k]? = some w.intMid := by rw [List.getElem?_map, hw]; rfl
  rw [h.ids, List.getElem?_map, List.getElem?_range hk] at hid
  exact ⟨(Option.some.inj hid).symm, hk⟩

/-- **A write is started** under a free internal identifier. -/
theorem popAndWrite (h : Accounts done c) (hfree : c.internalMid ∉ c.outBuffers) (m : PrepearedMessage B) :
    Accounts done (c.popAndWrite m) := by
  have hhanded : (c.popAndWrite m).handed = c.handed ++ [m] := handed_log _ _
  have hwrites := popAndWrite_free hfree m
  have hreports : (c.popAndWrite m).reports = c.reports := reports_event (e := .handed m) rfl rfl rfl
  have hlen := h.length_writes
  have hfresh : c.handed.length ∉ done.map Prod.fst := fun hmem => Nat.lt_irrefl _ (h.started _ hmem)
  -- no outstanding write has the new identifier, or its buffer would be there
  have hnew : ∀ k < c.handed.length, k ∉ done.map Prod.fst → intMidAt B k ≠ intMidAt B c.handed.length := by
    intro k hk hopen heq
    apply hfree
    rw [h.next, ← heq, Std.ExtTreeMap.mem_iff_isSome_getElem?, h.out k hk hopen, List.getElem?_eq_getElem hk]
    rfl
  have hlast : ∀ k < c.handed.length + 1, k < c.handed.length ∨ k = c.handed.length := fun k hk => by omega
  constructor
  · -- ids
    rw [hwrites, hhanded, List.map_append, h.ids, List.length_append, h.next, List.length_singleton,
      List.range_succ, List.map_append]
    rfl
  · -- next
    rw [popAndWrite_internalMid, hhanded, List.length_append, h.next]
    exact BitVec.ofNat_add_ofNat _ _
  · -- buffers
    rw [hwrites, hhanded, List.map_append, List.map_append, h.buffers]
    rfl
  · -- pending
    intro k w hw
    rw [hwrites, List.getElem?_append] at hw
    split at hw
    · exact h.pending k w hw
    · next hk =>
        have hw' : k - c.socket.writes.length < 1 := (List.getElem?_eq_some_iff.mp hw).1
        have hkeq : k = c.handed.length := by omega
        rw [hkeq, hlen, Nat.sub_self] at hw
        cases hw
        exact iff_of_true rfl (by rw [hkeq]; exact hfresh)
  · -- nodup
    exact h.nodup
  · -- started
    intro k hk
    rw [hhanded, List.length_append]
    exact Nat.lt_succ_of_lt (h.started k hk)
  · -- apart
    intro k l hk hl hkopen hlopen heq
    rw [hhanded, List.length_append] at hk hl
    rcases hlast k hk with hk | rfl <;> rcases hlast l hl with hl | rfl
    · exact h.apart k l hk hl hkopen hlopen heq
    · exact absurd heq (hnew k hk hkopen)
    · exact absurd heq.symm (hnew l hl hlopen)
    · rfl
  · -- out
    intro k hk hopen
    rw [hhanded, List.length_append] at hk
    rw [popAndWrite_outBuffers, Table.getElem?_insertIfNew hfree, h.next, hhanded]
    rcases hlast k hk with hk | rfl
    · rw [if_neg (Ne.symm (hnew k hk hopen)), h.out k hk hopen, List.getElem?_append_left hk]
    · rw [if_pos rfl, List.getElem?_concat_length]
  · -- only
    intro key hkey
    rw [hhanded, List.length_append]
    rw [popAndWrite_outBuffers, Std.ExtTreeMap.mem_iff_isSome_getElem?, Table.getElem?_insertIfNew hfree] at hkey
    by_cases heq : c.internalMid = key
    · exact ⟨_, Nat.lt_succ_self _, hfresh, h.next.symm.trans heq⟩
    · rw [if_neg heq, ← Std.ExtTreeMap.mem_iff_isSome_getElem?] at hkey
      obtain ⟨k, hk, hopen, hid⟩ := h.only key hkey
      exact ⟨k, Nat.lt_succ_of_lt hk, hopen, hid⟩
  · -- reports
    rw [hreports, ← h.reports, hhanded]
    refine List.map_congr_left fun p hp => ?_
    have hlt := h.started p.1 (List.mem_map_of_mem (List.mem_of_mem_filter hp))
    rw [List.getElem?_append_left hlt]

theorem getElem?_set_cases {ws : List (AsyncWrite B)} {i k : Nat} {w v : AsyncWrite B} (h : (ws.set i w)[k]? = some v) :
    (k = i ∧ v = w) ∨ (k ≠ i ∧ ws[k]? = some v) := by
  rw [List.getElem?_set] at h
  split at h
  · next hik =>
      split at h <;> cases h
      exact .inl ⟨hik.symm, rfl⟩
  · next hik => exact .inr ⟨Ne.symm hik, h⟩

/-- A transfer takes bytes off a pending write. -/
theorem transfer (h : Accounts done c) {i n : Nat} (hstep : c.envStep conf (.writeSome i n) = some c') :
    Accounts done c' := by
  rw [Comm.envStep] at hstep
  split at hstep
  · next w hw =>
      split at hstep <;> cases hstep
      have hw' := pendingWrite_eq_some hw
      have hids : (c.socket.writes.set i { w with rest := w.rest.drop n }).map AsyncWrite.intMid
          = c.socket.writes.map AsyncWrite.intMid := map_set_pending hw' rfl
      have hbuffers : (c.socket.writes.set i { w with rest := w.rest.drop n }).map AsyncWrite.buffer
          = c.socket.writes.map AsyncWrite.buffer := map_set_pending hw' rfl
      constructor
      · exact hids.trans h.ids
      · exact h.next
      · exact hbuffers.trans h.buffers
      · intro k v hv
        change (c.socket.writes.set i { w with rest := w.rest.drop n })[k]? = some v at hv
        rcases getElem?_set_cases hv with ⟨rfl, rfl⟩ | ⟨_, hold⟩
        · exact h.pending k w hw'
        · exact h.pending k v hold
      · exact h.nodup
      · exact h.started
      · exact h.apart
      · exact h.out
      · exact h.only
      · exact h.reports
  · cases hstep

/-- **A write completes**: its buffer is erased, and if it succeeded its message waits to be reported. -/
theorem complete (h : Accounts done c) {i error : Nat} {w : AsyncWrite B} (hw : c.pendingWrite i = some w) :
    Accounts (done ++ [(i, error == 0)])
      ((c.setWrite i { w with pending := false }).mtAsioWriteHandler error w.intMid) := by
  have hw' := pendingWrite_eq_some hw
  obtain ⟨hid, hi⟩ := h.intMid_eq hw'
  have hopen : i ∉ done.map Prod.fst := (h.pending i w hw').mp (Option.filter_eq_some_iff.mp hw).2
  have hmap : (done ++ [(i, error == 0)]).map Prod.fst = done.map Prod.fst ++ [i] := List.map_append
  have hids : (c.socket.writes.set i { w with pending := false }).map AsyncWrite.intMid
      = c.socket.writes.map AsyncWrite.intMid := map_set_pending hw' rfl
  have hbuffers : (c.socket.writes.set i { w with pending := false }).map AsyncWrite.buffer
      = c.socket.writes.map AsyncWrite.buffer := map_set_pending hw' rfl
  have hstill : ∀ k ∉ (done ++ [(i, error == 0)]).map Prod.fst, k ∉ done.map Prod.fst ∧ k ≠ i := by
    intro k hk
    rw [hmap, List.mem_append, List.mem_singleton, not_or] at hk
    exact hk
  constructor
  · -- ids
    rw [mtAsioWriteHandler_socket, mtAsioWriteHandler_handed]
    exact hids.trans h.ids
  · -- next
    rw [mtAsioWriteHandler_internalMid, mtAsioWriteHandler_handed]
    exact h.next
  · -- buffers
    rw [mtAsioWriteHandler_socket, mtAsioWriteHandler_handed]
    exact hbuffers.trans h.buffers
  · -- pending
    intro k v hv
    rw [mtAsioWriteHandler_socket] at hv
    change (c.socket.writes.set i { w with pending := false })[k]? = some v at hv
    rw [hmap, List.mem_append, List.mem_singleton]
    rcases getElem?_set_cases hv with ⟨rfl, rfl⟩ | ⟨hne, hold⟩
    · exact iff_of_false Bool.false_ne_true (fun hno => hno (.inr rfl))
    · rw [h.pending k v hold]
      exact ⟨fun hno hor => hor.elim hno hne, fun hno hmem => hno (.inl hmem)⟩
  · -- nodup
    rw [hmap, ← List.concat_eq_append]
    exact h.nodup.concat hopen
  · -- started
    intro k hk
    rw [mtAsioWriteHandler_handed]
    rw [hmap, List.mem_append, List.mem_singleton] at hk
    rcases hk with hk | rfl
    · exact h.started k hk
    · exact hi
  · -- apart
    intro k l hk hl hkopen hlopen
    rw [mtAsioWriteHandler_handed] at hk hl
    exact h.apart k l hk hl (hstill k hkopen).1 (hstill l hlopen).1
  · -- out
    intro k hk hkopen
    rw [mtAsioWriteHandler_handed] at hk ⊢
    obtain ⟨hkold, hne⟩ := hstill k hkopen
    have hkey : intMidAt B i ≠ intMidAt B k := fun heq => hne (h.apart k i hk hi hkold hopen heq.symm)
    rw [mtAsioWriteHandler_outBuffers, Table.getElem?_erase, hid, if_neg hkey]
    exact h.out k hk hkold
  · -- only
    intro key hkey
    rw [mtAsioWriteHandler_outBuffers, Std.ExtTreeMap.mem_erase, hid] at hkey
    obtain ⟨hother, hthere⟩ := hkey
    obtain ⟨k, hk, hkopen, rfl⟩ := h.only key hthere
    refine ⟨k, by rwa [mtAsioWriteHandler_handed], ?_, rfl⟩
    rw [hmap, List.mem_append, List.mem_singleton]
    rintro (hdone | rfl)
    · exact hkopen hdone
    · exact hother (Std.compare_eq_iff_eq.mpr rfl)
  · -- reports
    have hout : c.outBuffers[w.intMid]? = c.handed[i]? := by
      rw [hid, h.out i hi hopen]
    have hreports : ((c.setWrite i { w with pending := false }).mtAsioWriteHandler error w.intMid).reports
        = c.reports ++ (if error ≠ 0 then none else c.handed[i]?).toList.map PrepearedMessage.id := by
      rw [mtAsioWriteHandler_reports]
      change c.reports ++ (if error ≠ 0 then none else c.outBuffers[w.intMid]?).toList.map PrepearedMessage.id = _
      rw [hout]
    rw [hreports, mtAsioWriteHandler_handed]
    change ((done ++ [(i, error == 0)]).filter Prod.snd).map (fun p => (c.handed[p.1]?).map PrepearedMessage.id) = _
    rw [List.filter_append, List.map_append, h.reports, List.map_append]
    congr 1
    by_cases herr : error = 0
    · obtain ⟨m, hm⟩ : ∃ m, c.handed[i]? = some m := ⟨_, List.getElem?_eq_getElem hi⟩
      simp [herr, hm]
    · simp [herr]

/-- No completion. -/
theorem quiet (h : Accounts done c) (hreports : SameReports c c') (hwire : SameWire c c') :
    Accounts (done ++ []) c' := by
  rw [List.append_nil]
  exact h.congr hreports hwire

/-- Every step of the environment. -/
theorem envStep (h : Accounts done c) {e : EnvAct B} (hstep : c.envStep conf e = some c') :
    Accounts (done ++ (completes? e).toList) c' := by
  cases e with
  | send m =>
      cases hstep
      exact h.quiet (send_sameReports m c) (send_sameWire m c)
  | connectSuccess | handshake error | readAppend bytes | readUpdated | readFail error =>
      rw [Comm.envStep] at hstep
      split at hstep <;> cases hstep
      exact h.quiet ⟨rfl, rfl, rfl⟩ ⟨rfl, rfl, rfl⟩
  | writeSome i n => exact (h.transfer hstep).quiet ⟨rfl, rfl, rfl⟩ ⟨rfl, rfl, rfl⟩
  | writeDone i =>
      rw [Comm.envStep] at hstep
      split at hstep
      · next w hw =>
          split at hstep <;> cases hstep
          have hdone : Accounts (done ++ [(i, 0 == 0)]) _ := h.complete hw
          exact hdone
      · cases hstep
  | writeFail i error =>
      rw [Comm.envStep] at hstep
      split at hstep
      · next w hw =>
          split at hstep <;> cases hstep
          next herr =>
            have hdone : Accounts (done ++ [(i, error == 0)]) _ := h.complete hw
            rw [beq_false_of_ne herr] at hdone
            exact hdone
      · cases hstep
  | disconnect =>
      cases hstep
      rw [disconnect]
      split <;> exact h.quiet ⟨rfl, rfl, rfl⟩ ⟨rfl, rfl, rfl⟩

end Accounts

end Comm

/-! ## Runs -/

namespace System

/-- The write a step completes, and whether it succeeded. -/
def Act.completes? : Act B → Option (Nat × Bool)
  | .env e => Comm.completes? e
  | _      => none

/-- The completions of a run, in order. -/
def completions (as : List (Act B)) : List (Nat × Bool) := as.filterMap Act.completes?

theorem accounts_step {done : List (Nat × Bool)} {s s' : System B} {a : Act B} (hinv : s.Inv)
    (h : s.comm.Accounts done) (hfresh : FreshIntMid s a) (hs : System.step conf s a = some s') :
    s'.comm.Accounts (done ++ a.completes?.toList) := by
  rcases step_cases conf hinv.session hs with ⟨e, c, rfl, hc, rfl⟩ | ⟨rfl, -, rfl⟩ | ⟨ch, m, rfl, hm, rfl⟩
    | ⟨ch, st, rfl, -, -, heff, -⟩
  · exact h.envStep hc
  · exact h.quiet ⟨rfl, rfl, rfl⟩ ⟨rfl, rfl, rfl⟩
  · exact (h.popAndWrite (hfresh.free hm) m).quiet ⟨rfl, rfl, rfl⟩ ⟨rfl, rfl, rfl⟩
  · have hdone : s'.comm.Accounts done :=
      heff.invariant (fun _ _ he hi => hi.congr he.sameReports he.sameWire) h
    exact hdone.quiet ⟨rfl, rfl, rfl⟩ ⟨rfl, rfl, rfl⟩

theorem completions_snoc (past : List (Act B)) (a : Act B) :
    completions (past ++ [a]) = completions past ++ a.completes?.toList := by
  rw [completions, List.filterMap_append, ← completions]
  cases ha : a.completes? <;> simp [ha]

theorem accounts_run {id : CommId} {as : List (Act B)} {s : System B}
    (hg : Machine.Guarded (System.step conf) FreshIntMid (System.init id) as)
    (h : Machine.run (System.step conf) (System.init id) as = some s) : s.comm.Accounts (completions as) := by
  have hrun := Machine.run_past_invariant
    (fun past (s : System B) => s.Inv ∧ s.comm.Accounts (completions past))
    (fun past s a s' hi hfresh hs => by
      rw [completions_snoc]
      exact ⟨hi.1.step hs, accounts_step hi.1 hi.2 hfresh hs⟩)
    as [] (System.init id) s ⟨.init id, .create id⟩ hg h
  exact hrun.2

/-- What is to become of the writes of a run that ends in `s`. -/
structure ReportedOnce (as : List (Act B)) (s : System B) : Prop where
  /-- No write completes twice. -/
  once    : ((completions as).map Prod.fst).Nodup
  /-- The keys of the out buffers are the internal identifiers of the writes started and not completed, -/
  keys    : ∀ key, key ∈ s.comm.outBuffers
    ↔ ∃ k w, s.comm.socket.writes[k]? = some w ∧ k ∉ (completions as).map Prod.fst ∧ w.intMid = key
  /-- no two of which have the same, -/
  apart   : ∀ (k l : Nat) w v, s.comm.socket.writes[k]? = some w → s.comm.socket.writes[l]? = some v →
    k ∉ (completions as).map Prod.fst → l ∉ (completions as).map Prod.fst → w.intMid = v.intMid → k = l
  /-- each with its message. -/
  buffers : ∀ (k : Nat) w, s.comm.socket.writes[k]? = some w → k ∉ (completions as).map Prod.fst →
    s.comm.outBuffers[w.intMid]? = s.comm.handed[k]?
  /-- The messages of the writes that succeeded, in the order they completed, are those reported so far followed by
      those waiting in `_sent_messages`. -/
  reports : ((completions as).filter Prod.snd).map (fun p => (s.comm.handed[p.1]?).map PrepearedMessage.id)
    = (s.comm.reported ++ s.comm.sentMessages.map SentMessageInfo.mid).map some

/-- It is read off the accounts. -/
theorem ReportedOnce.of_accounts {as : List (Act B)} {s : System B} (hacc : s.comm.Accounts (completions as)) :
    ReportedOnce as s where
  once    := hacc.nodup
  keys    := fun key => by
    constructor
    · intro hkey
      obtain ⟨k, hk, hopen, hid⟩ := hacc.only key hkey
      obtain ⟨w, hw⟩ : ∃ w, s.comm.socket.writes[k]? = some w :=
        ⟨_, List.getElem?_eq_getElem (by rw [hacc.length_writes]; exact hk)⟩
      exact ⟨k, w, hw, hopen, (hacc.intMid_eq hw).1.trans hid⟩
    · rintro ⟨k, w, hw, hopen, rfl⟩
      obtain ⟨hid, hk⟩ := hacc.intMid_eq hw
      rw [hid, Std.ExtTreeMap.mem_iff_isSome_getElem?, hacc.out k hk hopen, List.getElem?_eq_getElem hk]
      rfl
  apart   := fun k l w v hw hv hk hl heq => by
    obtain ⟨hid, hlt⟩ := hacc.intMid_eq hw
    obtain ⟨hid', hlt'⟩ := hacc.intMid_eq hv
    exact hacc.apart k l hlt hlt' hk hl (by rw [← hid, ← hid', heq])
  buffers := fun k w hw hopen => by
    obtain ⟨hid, hk⟩ := hacc.intMid_eq hw
    rw [hid, hacc.out k hk hopen]
  reports := hacc.reports

/-- **A write under a taken internal identifier** keeps no buffer of its own, and is started with the bytes of the
    message that has the identifier. -/
theorem taken_step {s s' : System B} {a : Act B} (hs : System.step conf s a = some s') (hbad : ¬ FreshIntMid s a) :
    ∃ m old, s.proc = some (.popping m) ∧ s.comm.outBuffers[s.comm.internalMid]? = some old
      ∧ s'.comm.handed = s.comm.handed ++ [m] ∧ s'.comm.outBuffers = s.comm.outBuffers
      ∧ s'.comm.socket.writes = s.comm.socket.writes ++ [AsyncWrite.start s.comm.internalMid old.outBuffer] := by
  cases a with
  | env | enter => exact absurd trivial hbad
  | stage ch =>
      obtain ⟨hstarts, htaken⟩ : s.starts = true ∧ s.comm.internalMid ∈ s.comm.outBuffers := by
        simpa [FreshIntMid] using hbad
      obtain ⟨m, hm⟩ := proc_of_starts hstarts
      obtain ⟨old, hold⟩ := Option.isSome_iff_exists.mp (Std.ExtTreeMap.mem_iff_isSome_getElem?.mp htaken)
      obtain ⟨hout, hwrites⟩ := Comm.popAndWrite_taken hold m
      rw [System.step, hm] at hs
      cases hs
      exact ⟨m, old, hm, hold, Comm.handed_log _ _, hout, hwrites⟩

/-- **Every successful write is reported exactly once**, after any run whose steps start a write only under an internal
    identifier that no buffer has, the completions coming in any order and handlers throwing anywhere. A write that is
    started under the identifier of an outstanding one keeps no buffer of its own, and sends the bytes of the other's.
    -/
theorem sent_reported_once (conf : Config B) (id : CommId) (as : List (Act B)) (s : System B)
    (hg : Machine.Guarded (System.step conf) FreshIntMid (System.init id) as)
    (h : Machine.run (System.step conf) (System.init id) as = some s) :
    ReportedOnce as s
      ∧ ∀ a s', System.step conf s a = some s' → ¬ FreshIntMid s a →
          ∃ m old, s.proc = some (.popping m) ∧ s.comm.outBuffers[s.comm.internalMid]? = some old
            ∧ s'.comm.handed = s.comm.handed ++ [m] ∧ s'.comm.outBuffers = s.comm.outBuffers
            ∧ s'.comm.socket.writes
                = s.comm.socket.writes ++ [AsyncWrite.start s.comm.internalMid old.outBuffer] :=
  ⟨.of_accounts (accounts_run hg h), fun _ _ hs hbad => taken_step hs hbad⟩

/-- Both writes complete, the second one first, and the handler throws at its first call. -/
def secondFirst : List (Act .lp64) :=
  twoWrites ++ [.env (.writeSome 0 5), .env (.writeSome 1 5), .env (.writeDone 1), .env (.writeDone 0)]
    ++ List.replicate 4 (.stage .plain)
    ++ [.enter, .stage .plain, .stage { Choice.plain with handler := fun _ => some (.runtimeError "") }]

/-- One notification was made, one waits. -/
theorem sent_reported_once_secondFirst : ∃ s,
    Machine.run (System.step Config.plain) (System.init 1) secondFirst = some s
      ∧ s.comm.reported.length = 1 ∧ s.comm.sentMessages.length = 1
      ∧ ReportedOnce secondFirst s :=
  ⟨_, rfl, by decide +kernel, by decide +kernel,
    (sent_reported_once .plain 1 secondFirst _ (by decide +kernel) rfl).1⟩

/-! ## Few writes -/

/-- What was handed to the socket stays so. -/
theorem handed_le {s s' : System B} {a : Act B} (hinv : s.Inv) (hs : System.step conf s a = some s') :
    s.comm.handed.length ≤ s'.comm.handed.length := by
  rcases step_cases conf hinv.session hs with ⟨e, c, rfl, hc, rfl⟩ | ⟨-, -, rfl⟩ | ⟨ch, m, -, -, rfl⟩
    | ⟨ch, st, -, -, -, heff, -⟩
  · rcases Comm.envStep_cases hc with ⟨m, -, rfl⟩ | he
    · exact (congrArg List.length (Comm.send_sameWire m s.comm).1).ge
    · exact (congrArg List.length (Comm.envStep_sameOutgoing hc he).2.1).ge
  · exact Nat.le_refl _
  · rw [show (s.comm.popAndWrite m).handed = s.comm.handed ++ [m] from Comm.handed_log _ _, List.length_append]
    exact Nat.le_add_right _ _
  · have hsame : Comm.SameWire s.comm s'.comm :=
      heff.invariant (fun _ _ he hi => Comm.SameWire.trans hi he.sameWire) ⟨rfl, rfl, rfl⟩
    exact (congrArg List.length hsame.1).ge

/-- An identifier that is still in use was given to a write, so the counter has gone round once. -/
theorem many_of_taken {done : List (Nat × Bool)} {c : Comm B} (hacc : c.Accounts done)
    (htaken : c.internalMid ∈ c.outBuffers) : 2 ^ (8 * B.sizeofULong) ≤ c.handed.length := by
  obtain ⟨k, hk, -, hid⟩ := hacc.only _ htaken
  rw [hacc.next] at hid
  by_contra hfew
  have hsame : k % 2 ^ (8 * B.sizeofULong) = c.handed.length % 2 ^ (8 * B.sizeofULong) := by
    simpa [Comm.intMidAt] using congrArg BitVec.toNat hid
  rw [Nat.mod_eq_of_lt (by omega), Nat.mod_eq_of_lt (by omega)] at hsame
  omega

/-- The accounts hold, or there were more writes than identifiers. -/
structure Counted (s : System B) : Prop where
  inv      : s.Inv
  accounts : (∃ done, s.comm.Accounts done) ∨ 2 ^ (8 * B.sizeofULong) < s.comm.handed.length

/-- A step keeps that; one that starts a write under a taken identifier makes the writes too many. -/
theorem Counted.step {s s' : System B} {a : Act B} (h : s.Counted) (hs : System.step conf s a = some s') :
    s'.Counted ∧ (¬ FreshIntMid s a → 2 ^ (8 * B.sizeofULong) < s'.comm.handed.length) := by
  have hle := handed_le h.inv hs
  by_cases hfresh : FreshIntMid s a
  · refine ⟨⟨h.inv.step hs, ?_⟩, fun hbad => absurd hfresh hbad⟩
    rcases h.accounts with ⟨done, hdone⟩ | hmany
    · exact .inl ⟨_, accounts_step h.inv hdone hfresh hs⟩
    · exact .inr (hmany.trans_le hle)
  · have hmany : 2 ^ (8 * B.sizeofULong) < s'.comm.handed.length := by
      rcases h.accounts with ⟨done, hdone⟩ | hmany
      · obtain ⟨m, old, -, hold, hhanded, -⟩ := taken_step hs hfresh
        have htaken : s.comm.internalMid ∈ s.comm.outBuffers := by
          rw [Std.ExtTreeMap.mem_iff_isSome_getElem?, hold]
          rfl
        rw [hhanded, List.length_append]
        exact Nat.lt_succ_of_le (many_of_taken hdone htaken)
      · exact hmany.trans_le hle
    exact ⟨⟨h.inv.step hs, .inr hmany⟩, fun _ => hmany⟩

/-- **A run with no more writes than there are identifiers** starts every write under a free one. -/
theorem guarded_of_few {id : CommId} {as : List (Act B)} {s : System B}
    (h : Machine.run (System.step conf) (System.init id) as = some s)
    (hfew : s.comm.handed.length ≤ 2 ^ (8 * B.sizeofULong)) :
    Machine.Guarded (System.step conf) FreshIntMid (System.init id) as := by
  have hor : Machine.Guarded (System.step conf) FreshIntMid (System.init id) as
      ∨ (s.Counted ∧ 2 ^ (8 * B.sizeofULong) < s.comm.handed.length) := Machine.guarded_or_bad Counted
    (fun s : System B => s.Counted ∧ 2 ^ (8 * B.sizeofULong) < s.comm.handed.length)
    (fun s a s' hi hs => (hi.step hs).1) (fun s a s' hi hbad hs => ⟨(hi.step hs).1, (hi.step hs).2 hbad⟩)
    (fun s a s' hmany hs => ⟨(hmany.1.step hs).1, hmany.2.trans_le (handed_le hmany.1.inv hs)⟩)
    as _ s ⟨.init id, .inl ⟨[], .create id⟩⟩ h
  exact hor.resolve_right (fun hmany => Nat.not_lt.mpr hfew hmany.2)

end System

end Unicomm
