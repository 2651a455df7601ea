import Unicomm.Lib.Family
import Unicomm.Dispatcher.Steps

/-!
# `Dispatcher.Kick` — whether work is left without a wake-up

A communicator with unprocessed data needs somebody who is going to look at it: a kick handler that is queued,
a thread or handler that is about to kick, or a thread in its loop that has not passed the communicator yet.
The counter of kicks suppresses a kick only when another one is on its way (`Counted`), and of all the moves
three can take the last wake-up away (`abandoned`): a thread finds nothing to take out, although another
thread has the communicator and has checked it already; a `catch` block keeps the communicator without
checking it; `send_all` throws before it kicks. As long as **none of the three abandons the last one**, no
work is stranded (`no_stranded_work`).
-/

namespace Unicomm

variable {B : Build} {N M : Nat} {conf : Config B}

/-! ## Who is going to look -/

namespace Agent

/-- The thread is going to kick the dispatcher for `id`. -/
def wakes (id : CommId) : Agent B → Bool
  | .idle                => false
  | .reading _           => true
  | .sendingAll _ sended => sended.contains id
  | .kicking _ _         => true

/-- The thread has incremented the counter of kicks and is about to post. -/
def posting : Agent B → Bool
  | .kicking _ .post => true
  | _                => false

end Agent

namespace Thread

/-- The thread is going to kick the dispatcher, or to ask for communicators and has not passed `id`. -/
def wakes (id : CommId) : Thread B → Bool
  | .idle                 => false
  | .taking comms         => !comms.contains id
  | .processing comms _ _ => !comms.contains id
  | .checking comms _     => !comms.contains id
  | .kicking _ _          => true
  | .caught comms _ _     => !comms.contains id
  | .removed comms k      => !(comms ++ [k]).contains id
  | .returning _          => false

/-- The thread has incremented the counter of kicks and is about to post. -/
def posting : Thread B → Bool
  | .kicking _ .post => true
  | _                => false

end Thread

namespace Running

variable (conf) (s : Running B N M)

/-- Somebody is going to look at communicator `id`. -/
def woken (id : CommId) : Prop :=
  0 < s.kickQueue ∨ (∃ a, (s.agents a).wakes id = true) ∨ ∃ t, (s.threads t).wakes id = true

instance (id : CommId) : Decidable (s.woken id) := inferInstanceAs (Decidable (_ ∨ (∃ _, _) ∨ ∃ _, _))

/-! ## Who stops looking -/

/-- **The communicators with unprocessed data that a step stops looking after**: all that are excluded, when a
    thread finds nothing to take out; the one whose exception was handled, when it is kept; those `send_all`
    queued its message on, when it throws. -/
def abandoned : Act B N M → List CommId
  | .thread t _ =>
      match s.threads t with
      | .taking _      =>
          if s.clients.takeOut.1.isNone then s.clients.excluded.toList.filter s.unprocessed else []
      | .caught _ id e => if disconnects e then [] else [id].filter s.unprocessed
      | _              => []
  | .sendAllPrimary _ m =>
      let p := sendAllPass conf s.clients.clients m s.comms
      if p.thrown.isSome then p.sended.keys else []
  | .sendAllExcluded a =>
      match s.agents a with
      | .sendingAll m sended =>
          let p := sendAllPass conf s.clients.excluded m s.comms
          if p.thrown.isSome then sended.keys.filter s.unprocessed ++ p.sended.keys else []
      | _ => []
  | _ => []

/-- The state without the one whose step it is. -/
def withoutMover : Act B N M → Running B N M
  | .thread t _ => s.setThread t .idle
  | .sendAllPrimary a _ | .sendAllExcluded a => s.setAgent a .idle
  | _ => s

/-- **A step takes no last wake-up away**: somebody else is going to look at whatever it abandons. -/
def KeepsWoken (act : Act B N M) : Prop :=
  ∀ id ∈ s.abandoned conf act, s.clients.clientExists id → (s.withoutMover act).woken id

instance (act : Act B N M) : Decidable (s.KeepsWoken conf act) := inferInstanceAs (Decidable (∀ _ ∈ _, _ → _))

end Running

/-! ## Data that is still to be processed -/

namespace Comm

variable {c c' : Comm B}

/-- The data a processing thread asks for. -/
structure SameData (c c' : Comm B) : Prop where
  inBuffer        : c'.inBuffer = c.inBuffer
  inBufferUpdated : c'.inBufferUpdated = c.inBufferUpdated
  queue           : c'.prepearedMQueue = c.prepearedMQueue

theorem SameData.refl (c : Comm B) : SameData c c := ⟨rfl, rfl, rfl⟩

theorem sameData_disconnect (c : Comm B) : SameData c c.disconnect := by
  unfold disconnect
  split <;> constructor <;> rfl

theorem sameData_mtAsioWriteHandler (error : Nat) (intMid : MessageId B) (c : Comm B) :
    SameData c (c.mtAsioWriteHandler error intMid) := by
  unfold mtAsioWriteHandler
  simp only
  split
  · constructor <;> rfl
  · unfold mtRegSentMessage
    split <;> constructor <;> rfl

/-- **Whoever is not told about a step has nothing to look at after it.** -/
theorem sameData_silent {e : EnvAct B} (he : Running.silent e = true) (h : c.envStep conf e = some c') :
    SameData c c' := by
  cases e with
  | send | readAppend | readUpdated | readFail | writeFail => cases he
  | connectSuccess | handshake error =>
      rw [envStep] at h
      split at h <;> cases h
      constructor <;> rfl
  | writeSome i n =>
      rw [envStep] at h
      split at h
      · split at h <;> cases h
        constructor <;> rfl
      · cases h
  | writeDone i =>
      rw [envStep] at h
      split at h
      · next w _ =>
          split at h <;> cases h
          obtain ⟨hb, hu, hq⟩ :=
            sameData_mtAsioWriteHandler 0 w.intMid (c.setWrite i { w with pending := false })
          exact ⟨hb, hu, hq⟩
      · cases h
  | disconnect =>
      rw [envStep] at h
      cases h
      exact sameData_disconnect c

/-- A send that throws queues nothing. -/
theorem sameData_send {m : BinMessage B} (h : (c.prepareToWrite conf m).result.isOk = false) :
    SameData c (c.prepareToWrite conf m).comm := by
  rcases prepareToWrite_cases conf m c with ⟨e, hc, -⟩ | ⟨out, -, -, hc⟩ <;> rw [hc] at h ⊢
  · rcases @drawMid_snd B conf m c with hd | hd <;> rw [hd] <;> constructor <;> rfl
  · cases h

theorem sameData_handleException (e : Exc) (c : Comm B) : SameData c (Running.handleException e c) := by
  rcases Running.handleException_cases e c with h | ⟨-, h⟩ | h <;> rw [h]
  · exact sameData_disconnect c
  · constructor <;> rfl
  · exact .refl _

theorem sameData_handleDisconnected (c : Comm B) : SameData c (Running.handleDisconnected c) := by
  obtain ⟨hb, hu, hq⟩ := sameData_disconnect c
  rcases Running.handleDisconnected_cases c with ⟨-, h⟩ | ⟨-, h⟩ <;> rw [h]
  · exact ⟨hb, hu, hq⟩
  · exact ⟨hb, hu, hq⟩

end Comm

/-- What a pass sent stays in its map. -/
theorem mem_messageSender_sended {ids : List CommId} {sended : FullMessageidMap B} {m : BinMessage B}
    {comms : CommId → Comm B} {id : CommId} (h : id ∈ sended) :
    id ∈ (messageSender conf ids sended m comms).sended := by
  induction ids generalizing sended m comms with
  | nil => exact h
  | cons k ids ih =>
      unfold messageSender
      simp only
      split
      · exact h
      · exact ih (Std.ExtTreeMap.mem_insertIfNew.mpr (.inr h))

/-- **A pass changes the data of those only that are in its map.** -/
theorem sameData_messageSender {ids : List CommId} {sended : FullMessageidMap B} {m : BinMessage B}
    {comms : CommId → Comm B} {id : CommId} (h : id ∉ (messageSender conf ids sended m comms).sended) :
    Comm.SameData (comms id) ((messageSender conf ids sended m comms).comms id) := by
  induction ids generalizing sended m comms with
  | nil => exact .refl _
  | cons k ids ih =>
      unfold messageSender at h ⊢
      simp only at h ⊢
      split at h
      · next e hr =>
          show Comm.SameData (comms id) (Function.update comms k _ id)
          rw [Function.update_apply]
          split
          · next hk => rw [hk]; exact Comm.sameData_send (by rw [hr]; rfl)
          · exact .refl _
      · next mid hr =>
          have hk : id ≠ k := by
            intro hk
            refine h (mem_messageSender_sended ?_)
            exact Std.ExtTreeMap.mem_insertIfNew.mpr (.inl (Std.compare_eq_iff_eq.mpr hk.symm))
          have hrest := ih h
          rw [Function.update_of_ne hk] at hrest
          exact hrest

namespace Running

variable {s s' : Running B N M} {act : Act B N M} {id : CommId}

theorem unprocessed_congr (h : Comm.SameData (s.comms id) (s'.comms id)) :
    s'.unprocessed id = s.unprocessed id := by
  unfold unprocessed Comm.mtIsUnprocessedIncoming Comm.mtIsUnprocessedOutgoing
  rw [h.inBuffer, h.inBufferUpdated, h.queue]

/-- A change of another communicator. -/
theorem unprocessed_update {k : CommId} {c : Comm B} (h : id = k → Comm.SameData (s.comms k) c)
    (hs : s'.comms = Function.update s.comms k c) : s'.unprocessed id = s.unprocessed id := by
  refine unprocessed_congr ?_
  rw [hs, Function.update_apply]
  split
  · next hk => rw [hk]; exact h hk
  · exact .refl _

/-! ## Kicks that are on their way -/

/-- How many calls are about to post. -/
def posters (s : Running B N M) : Nat :=
  Family.count Agent.posting s.agents + Family.count Thread.posting s.threads

/-- **The counter of kicks** counts the handlers that are queued and the calls that are about to queue one. -/
def Counted (s : Running B N M) : Prop := s.kickCount = s.kickQueue + s.posters

theorem Counted.init : (Running.init : Running B N M).Counted := by
  show 0 = 0 + (Family.count Agent.posting (fun _ : Fin M => .idle)
    + Family.count Thread.posting (fun _ : Fin N => .idle))
  rw [Family.count_const rfl, Family.count_const rfl]

theorem posters_setAgent (s : Running B N M) (a : Fin M) (x : Agent B) :
    (s.setAgent a x).posters + (s.agents a).posting.toNat = s.posters + x.posting.toNat := by
  have hcount := Family.count_update Agent.posting s.agents a x
  unfold posters setAgent
  simp only
  omega

theorem posters_setThread (s : Running B N M) (t : Fin N) (x : Thread B) :
    (s.setThread t x).posters + (s.threads t).posting.toNat = s.posters + x.posting.toNat := by
  have hcount := Family.count_update Thread.posting s.threads t x
  unfold posters setThread
  simp only
  omega

theorem Counted.setAgent (h : s.Counted) {a : Fin M} {x : Agent B} (hx : x.posting = (s.agents a).posting) :
    (s.setAgent a x).Counted := by
  have hposters := s.posters_setAgent a x
  rw [hx, Nat.add_right_cancel_iff] at hposters
  show s.kickCount = s.kickQueue + (s.setAgent a x).posters
  rw [hposters]
  exact h

theorem Counted.setThread (h : s.Counted) {t : Fin N} {x : Thread B} (hx : x.posting = (s.threads t).posting) :
    (s.setThread t x).Counted := by
  have hposters := s.posters_setThread t x
  rw [hx, Nat.add_right_cancel_iff] at hposters
  show s.kickCount = s.kickQueue + (s.setThread t x).posters
  rw [hposters]
  exact h

/-- What a step of a kick does to the counter and to the queue, with what is about to be posted. -/
theorem kickStep_count (s : Running B N M) (k : Kick) :
    (s.kickStep k).2.kickCount + s.kickQueue + (decide (k = .post)).toNat
      = s.kickCount + (s.kickStep k).2.kickQueue + (decide ((s.kickStep k).1 = some .post)).toNat := by
  cases k with
  | test =>
      show s.kickCount + s.kickQueue + 0 = s.kickCount + s.kickQueue
        + (decide ((if s.kickCount < N then some Kick.inc else none) = some .post)).toNat
      split <;> rfl
  | inc =>
      show s.kickCount + 1 + s.kickQueue + 0 = s.kickCount + s.kickQueue + 1
      omega
  | post =>
      show s.kickCount + s.kickQueue + 1 = s.kickCount + (s.kickQueue + 1) + 0
      omega

theorem posters_kickStep (s : Running B N M) (k : Kick) : (s.kickStep k).2.posters = s.posters := by
  obtain ⟨-, -, -, ht, ha⟩ := s.kickStep_frame k
  unfold posters
  rw [ht, ha]

/-- **A step of a kick counts right** when whoever makes it goes on as the step says. -/
theorem Counted.kick (h : s.Counted) {k : Kick} {s' : Running B N M}
    (hcount : s'.kickCount = (s.kickStep k).2.kickCount) (hqueue : s'.kickQueue = (s.kickStep k).2.kickQueue)
    (hposters : s'.posters + (decide (k = .post)).toNat
      = s.posters + (decide ((s.kickStep k).1 = some .post)).toNat) : s'.Counted := by
  have hstep := s.kickStep_count k
  unfold Counted at h ⊢
  omega

theorem Counted.kickAgent (h : s.Counted) {a : Fin M} {mids : FullMessageidMap B} {k : Kick}
    (ha : s.agents a = .kicking mids k) :
    ((s.kickStep k).2.setAgent a
      (match (s.kickStep k).1 with | some k => .kicking mids k | none => .idle)).Counted := by
  refine h.kick rfl rfl ?_
  have hposters := posters_setAgent (s.kickStep k).2 a
    (match (s.kickStep k).1 with | some k => .kicking mids k | none => .idle)
  have hbefore : (s.agents a).posting = decide (k = .post) := by rw [ha]; cases k <;> rfl
  rw [posters_kickStep, (s.kickStep_frame k).2.2.2.2, hbefore] at hposters
  rw [hposters]
  rcases (s.kickStep k).1 with _ | _ | _ | _ <;> rfl

theorem Counted.kickThread (h : s.Counted) {t : Fin N} {comms : List CommId} {k : Kick}
    (ht : s.threads t = .kicking comms k) :
    ((s.kickStep k).2.setThread t
      (match (s.kickStep k).1 with | some k => .kicking comms k | none => .taking comms)).Counted := by
  refine h.kick rfl rfl ?_
  have hposters := posters_setThread (s.kickStep k).2 t
    (match (s.kickStep k).1 with | some k => .kicking comms k | none => .taking comms)
  have hbefore : (s.threads t).posting = decide (k = .post) := by rw [ht]; cases k <;> rfl
  rw [posters_kickStep, (s.kickStep_frame k).2.2.2.1, hbefore] at hposters
  rw [hposters]
  rcases (s.kickStep k).1 with _ | _ | _ | _ <;> rfl

/-- A call that goes on with the kick, or does not, is not about to post. -/
theorem posting_afterSend {x : Agent B} (hx : x.posting = false) (thrown : Option Exc) :
    (afterSend thrown x).posting = false := by
  unfold afterSend
  split
  · rfl
  · exact hx

theorem posting_enter (s : Running B N M) (comms : List CommId) (id : CommId) :
    (s.enter comms id).posting = false := by
  unfold enter
  split <;> rfl

/-- **Every move counts the kicks right.** -/
theorem Counted.move (h : s.Counted) (hm : Move conf s act s') : s'.Counted := by
  -- nobody but a kick is about to post, before or after its move
  have hagent : ∀ {a : Fin M} {x y : Agent B} {c : Running B N M}, c.Counted → c.agents = s.agents →
      s.agents a = x → x.posting = false → y.posting = false → (c.setAgent a y).Counted := by
    intro a x y c hc hagents ha hx hy
    exact hc.setAgent (by rw [hagents, ha, hx, hy])
  have hthread : ∀ {t : Fin N} {x y : Thread B} {c : Running B N M}, c.Counted → c.threads = s.threads →
      s.threads t = x → x.posting = false → y.posting = false → (c.setThread t y).Counted := by
    intro t x y c hc hthreads ht hx hy
    exact hc.setThread (by rw [hthreads, ht, hx, hy])
  cases hm with
  | comm => exact h
  | accept ha | report ha | readAppend ha | readUpdated ha => exact hagent (c := { s with .. }) h rfl ha rfl rfl
  | send ha => exact hagent (c := s.setComm _ _) h rfl ha rfl (by split <;> rfl)
  | sendAllPrimary ha | sendAllExcluded ha =>
      exact hagent (c := { s with .. }) h rfl ha rfl (posting_afterSend rfl _)
  | kick ha => exact h.kickAgent ha
  | kickThread ht => exact h.kickThread ht
  | @start t ch ht hq =>
      have hc : ({ s with kickQueue := s.kickQueue - 1, kickCount := s.kickCount - 1 }
          : Running B N M).Counted := by
        have hsame : ({ s with kickQueue := s.kickQueue - 1, kickCount := s.kickCount - 1 }
            : Running B N M).posters = s.posters := rfl
        unfold Counted at h ⊢
        simp only [hsame]
        omega
      exact hthread hc rfl ht rfl rfl
  | take ht => exact hthread (c := { s with .. }) h rfl ht rfl (posting_enter ..)
  | empty ht | getBack ht | finish ht | removed ht => exact hthread (c := { s with .. }) h rfl ht rfl rfl
  | @stage t ch comms id st ht =>
      refine hthread (c := s.setComm id _) h rfl ht rfl ?_
      cases (Comm.runStage conf ch st (s.comms id)).2 <;> rfl
  | check ht => exact hthread h rfl ht rfl (by split <;> rfl)
  | caught ht =>
      unfold catchStep
      simp only
      split
      · split
        · exact hthread (c := { s with .. }) h rfl ht rfl rfl
        · exact hthread h rfl ht rfl rfl
      · exact hthread (c := s.setComm _ _) h rfl ht rfl rfl

/-- **A kick that is suppressed is not missed**: another one is queued, or about to be. -/
theorem Counted.woken (h : s.Counted) (hN : 0 < N) (hk : (s.kickStep .test).1 = none) (id : CommId) :
    0 < s.kickQueue ∨ (∃ a, (s.agents a).posting = true ∧ (s.agents a).wakes id = true)
      ∨ ∃ t, (s.threads t).posting = true ∧ (s.threads t).wakes id = true := by
  have hfull : N ≤ s.kickCount := by
    unfold kickStep at hk
    simp only at hk
    split at hk
    · cases hk
    · next hlt => exact Nat.le_of_not_lt hlt
  unfold Counted posters at h
  by_cases hq : 0 < s.kickQueue
  · exact .inl hq
  · by_cases ha : 0 < Family.count Agent.posting s.agents
    · obtain ⟨a, ha⟩ := Family.exists_of_count_pos ha
      refine .inr (.inl ⟨a, ha, ?_⟩)
      cases hx : s.agents a <;> rw [hx] at ha <;> first | rfl | cases ha
    · obtain ⟨t, ht⟩ := Family.exists_of_count_pos (p := Thread.posting) (f := s.threads) (by omega)
      refine .inr (.inr ⟨t, ht, ?_⟩)
      cases hx : s.threads t <;> rw [hx] at ht <;> first | rfl | cases ht

/-! ## Who looks after a move -/

theorem woken_of_agent {a : Fin M} {x : Agent B} (hx : x.wakes id = true) : (s.setAgent a x).woken id :=
  .inr (.inl ⟨a, by show (Function.update s.agents a x a).wakes id = true; rw [Function.update_self, hx]⟩)

theorem woken_of_thread {t : Fin N} {x : Thread B} (hx : x.wakes id = true) : (s.setThread t x).woken id :=
  .inr (.inr ⟨t, by show (Function.update s.threads t x t).wakes id = true; rw [Function.update_self, hx]⟩)

/-- When one agent moves, the others still look. -/
theorem woken.setAgent (h : s.woken id) {a : Fin M} {x : Agent B}
    (hx : (s.agents a).wakes id = true → (s.setAgent a x).woken id) : (s.setAgent a x).woken id := by
  rcases h with hq | ⟨b, hb⟩ | ht
  · exact .inl hq
  · by_cases hab : b = a
    · rw [hab] at hb; exact hx hb
    · refine .inr (.inl ⟨b, ?_⟩)
      show (Function.update s.agents a x b).wakes id = true
      rw [Function.update_of_ne hab, hb]
  · exact .inr (.inr ht)

/-- When one thread moves, the others still look. -/
theorem woken.setThread (h : s.woken id) {t : Fin N} {x : Thread B}
    (hx : (s.threads t).wakes id = true → (s.setThread t x).woken id) : (s.setThread t x).woken id := by
  rcases h with hq | ha | ⟨u, hu⟩
  · exact .inl hq
  · exact .inr (.inl ha)
  · by_cases hut : u = t
    · rw [hut] at hu; exact hx hu
    · refine .inr (.inr ⟨u, ?_⟩)
      show (Function.update s.threads t x u).wakes id = true
      rw [Function.update_of_ne hut, hu]

/-- **After a step of a kick somebody is going to look at everything**: whoever goes on with it, the handler
    that was queued, or the kick that made this one superfluous. -/
theorem Counted.woken_kickAgent (h : s.Counted) (hN : 0 < N) {a : Fin M} {mids : FullMessageidMap B} {k : Kick}
    (ha : s.agents a = .kicking mids k) (id : CommId) : ((s.kickStep k).2.setAgent a
      (match (s.kickStep k).1 with | some k => .kicking mids k | none => .idle)).woken id := by
  cases k with
  | test =>
      cases hk : (s.kickStep .test).1 with
      | some k => exact woken_of_agent rfl
      | none =>
          rcases h.woken hN hk id with hq | ⟨b, hpost, hb⟩ | ⟨t, -, ht⟩
          · exact .inl hq
          · -- the one about to post is not the one that only tests
            have hba : b ≠ a := by
              rintro rfl
              rw [ha] at hpost
              cases hpost
            refine .inr (.inl ⟨b, ?_⟩)
            show (Function.update s.agents a _ b).wakes id = true
            rw [Function.update_of_ne hba, hb]
          · exact .inr (.inr ⟨t, ht⟩)
  | inc  => exact woken_of_agent rfl
  | post => exact .inl (Nat.succ_pos s.kickQueue)

theorem Counted.woken_kickThread (h : s.Counted) (hN : 0 < N) {t : Fin N} {comms : List CommId} {k : Kick}
    (ht : s.threads t = .kicking comms k) (id : CommId) : ((s.kickStep k).2.setThread t
      (match (s.kickStep k).1 with | some k => .kicking comms k | none => .taking comms)).woken id := by
  cases k with
  | test =>
      cases hk : (s.kickStep .test).1 with
      | some k => exact woken_of_thread rfl
      | none =>
          rcases h.woken hN hk id with hq | ⟨a, -, ha⟩ | ⟨u, hpost, hu⟩
          · exact .inl hq
          · exact .inr (.inl ⟨a, ha⟩)
          · have hut : u ≠ t := by
              rintro rfl
              rw [ht] at hpost
              cases hpost
            refine .inr (.inr ⟨u, ?_⟩)
            show (Function.update s.threads t _ u).wakes id = true
            rw [Function.update_of_ne hut, hu]
  | inc  => exact woken_of_thread rfl
  | post => exact .inl (Nat.succ_pos s.kickQueue)

/-! ## The invariant -/

/-- **Somebody is going to look at every communicator that has unprocessed data.** -/
structure Attended (s : Running B N M) : Prop where
  counted : s.Counted
  woken   : ∀ {id}, s.clients.clientExists id → s.unprocessed id = true → s.woken id

theorem Attended.init : (Running.init : Running B N M).Attended where
  counted   := .init
  woken _ h := by cases h

/-- One pass of `send_all`. -/
theorem mem_abandoned_or_sameData {clients : CommCollection} {m : BinMessage B} (id : CommId) :
    id ∈ (sendAllPass conf clients m s.comms).sended.keys
      ∨ Comm.SameData (s.comms id) ((sendAllPass conf clients m s.comms).comms id) := by
  by_cases h : id ∈ (sendAllPass conf clients m s.comms).sended
  · exact .inl (Std.ExtTreeMap.mem_keys.mpr h)
  · exact .inr (sameData_messageSender h)

theorem clientExists_getBack {c : CommContainer} {k : CommId} (h : (c.getBack k).clientExists id) :
    c.clientExists id := by
  rcases h with h | h
  · exact (CommContainer.mem_clients_getBack.mp h).imp_right And.right
  · exact .inr (CommContainer.mem_excluded_getBack.mp h).1

theorem clientExists_erase {c : CommContainer} {k : CommId} (h : (c.erase k).2.clientExists id) :
    id ≠ k ∧ c.clientExists id := by
  rcases h with h | h
  · exact (CommContainer.mem_erase.mp h).imp_right .inl
  · exact (CommContainer.mem_erase.mp h).imp_right .inr

/-- A thread that looks at no less than before. -/
theorem woken.thread {t : Fin N} {x y : Thread B} (h : s.woken id) (ht : s.threads t = x)
    (hxy : x.wakes id = true → y.wakes id = true) : (s.setThread t y).woken id :=
  h.setThread (fun hx => woken_of_thread (hxy (by rw [← ht]; exact hx)))

/-- Whoever looks at a communicator while a thread does not looks at it whatever that thread does. -/
theorem woken.other {t : Fin N} {x y : Thread B} (h : (s.setThread t x).woken id) (hx : x.wakes id = false) :
    (s.setThread t y).woken id := by
  have htwice : (s.setThread t x).setThread t y = s.setThread t y := by
    unfold Running.setThread
    rw [Function.update_idem]
  rw [← htwice]
  refine h.setThread (fun hwakes => ?_)
  have hself : (s.setThread t x).threads t = x := Function.update_self ..
  rw [hself, hx] at hwakes
  cases hwakes

/-- A thread that has passed `k` still looks at the others. -/
theorem wakes_passed {comms : List CommId} {k : CommId} (hid : id ≠ k) (h : (!comms.contains id) = true) :
    (!(comms ++ [k]).contains id) = true := by
  simp only [Bool.not_eq_true', List.contains_eq_mem, decide_eq_false_iff_not] at h ⊢
  intro hin
  rcases List.mem_append.mp hin with hin | hin
  · exact h hin
  · exact hid (List.mem_singleton.mp hin)

theorem wakes_enter (s : Running B N M) (comms : List CommId) (k : CommId) :
    (s.enter comms k).wakes id = !comms.contains id := by
  unfold enter
  split <;> rfl

theorem wakes_afterStage (comms : List CommId) (k : CommId) (next : Comm.Next B) :
    (afterStage comms k next).wakes id = !comms.contains id := by
  cases next <;> rfl

/-- `send`. -/
theorem Attended.woken_send (h : s.Attended) {a : Fin M} {k : CommId} {m : BinMessage B} {s' : Running B N M}
    (ha : s.agents a = .idle)
    (hs' : s' = (s.setComm k ((s.comms k).prepareToWrite conf m).comm).setAgent a
      (if ((s.comms k).prepareToWrite conf m).result.isOk then .kicking ∅ .test else .idle))
    (hin : s'.clients.clientExists id) (hun : s'.unprocessed id = true) : s'.woken id := by
  subst hs'
  cases hr : ((s.comms k).prepareToWrite conf m).result.isOk with
  | true => exact woken_of_agent rfl
  | false =>
      -- nothing was queued
      have hold : s.unprocessed id = true := by
        rw [← hun]
        exact (unprocessed_update (fun _ => Comm.sameData_send hr) rfl).symm
      have hw : (s.setComm k ((s.comms k).prepareToWrite conf m).comm).woken id := h.woken hin hold
      refine hw.setAgent (fun hwakes => ?_)
      have hno : (s.agents a).wakes id = true := hwakes
      rw [ha] at hno
      cases hno

/-- A pass of `send_all` that goes over `clients` and leads the agent on to `x`, unless it throws. -/
theorem Attended.woken_sendAll (h : s.Attended) {a : Fin M} {clients : CommCollection} {m : BinMessage B}
    {p : Sended B} (hp : p = sendAllPass conf clients m s.comms) {x : Agent B}
    (hx : ∀ id, id ∈ p.sended.keys ∨ (s.agents a).wakes id = true → x.wakes id = true)
    (hok : p.thrown.isSome → ∀ id,
      id ∈ p.sended.keys ∨ ((s.agents a).wakes id = true ∧ s.unprocessed id = true) →
      s.clients.clientExists id → (s.setAgent a .idle).woken id)
    (hin : s.clients.clientExists id)
    (hun : ({ s with comms := p.comms }.setAgent a (afterSend p.thrown x)
      : Running B N M).unprocessed id = true) :
    ({ s with comms := p.comms }.setAgent a (afterSend p.thrown x) : Running B N M).woken id := by
  -- a communicator that got nothing has the data it had
  have hsame : id ∉ p.sended.keys → Comm.SameData (s.comms id) (p.comms id) := by
    intro hno
    rw [hp] at hno ⊢
    exact (mem_abandoned_or_sameData id).resolve_left hno
  have hold : id ∉ p.sended.keys → s.unprocessed id = true := by
    intro hno
    rw [← hun]
    exact (unprocessed_congr (hsame hno)).symm
  -- a pass that is through kicks for all it queued; one that throws leaves it to the hypothesis
  cases ht : p.thrown with
  | none =>
      show ({ s with comms := p.comms }.setAgent a x : Running B N M).woken id
      by_cases hwakes : x.wakes id = true
      · exact woken_of_agent hwakes
      · have hno : id ∉ p.sended.keys := fun hmem => hwakes (hx id (.inl hmem))
        have hw : ({ s with comms := p.comms } : Running B N M).woken id := h.woken hin (hold hno)
        exact hw.setAgent (fun ha => absurd (hx id (.inr ha)) hwakes)
  | some e =>
      have hok' := hok (by rw [ht]; rfl) id
      by_cases hmem : id ∈ p.sended.keys
      · exact hok' (.inl hmem) hin
      · have hw : s.woken id := h.woken hin (hold hmem)
        by_cases ha : (s.agents a).wakes id = true
        · exact hok' (.inr ⟨ha, hold hmem⟩) hin
        · exact hw.setAgent (fun ha' => absurd ha' ha)

/-- **A step that takes no last wake-up away leaves everything attended.** -/
theorem Attended.woken_move (h : s.Attended) (hx : s.Exclusive) (hN : 0 < N) (hok : s.KeepsWoken conf act)
    (hm : Move conf s act s') {id : CommId} (hin : s'.clients.clientExists id)
    (hun : s'.unprocessed id = true) : s'.woken id := by
  cases hm with
  | accept | report | readAppend | readUpdated => exact woken_of_agent rfl
  | comm hk he hc =>
      -- nobody is told about it, and there is nothing new to look at
      rw [unprocessed_update (fun _ => Comm.sameData_silent he hc) rfl] at hun
      exact h.woken hin hun
  | send ha => exact h.woken_send ha rfl hin hun
  | sendAllPrimary ha hp =>
      have hno : ∀ k, (s.agents _).wakes k = true → False := fun k hk => by rw [ha] at hk; cases hk
      refine h.woken_sendAll hp (fun k hk => ?_) (fun hthrown k hk => hok k ?_) hin hun
      · rcases hk with hk | hk
        · exact Std.ExtTreeMap.mem_keys.mp hk
        · exact (hno k hk).elim
      · unfold abandoned
        simp only [← hp, hthrown, if_true]
        exact hk.resolve_right (fun hk => hno k hk.1)
  | sendAllExcluded ha hp =>
      refine h.woken_sendAll hp (fun k hk => rfl) (fun hthrown k hk => hok k ?_) hin hun
      unfold abandoned
      simp only [ha, ← hp, hthrown, if_true, List.mem_append, List.mem_filter]
      rcases hk with hk | ⟨hk, hunk⟩
      · exact .inr hk
      · -- it was sent the message by the primary pass
        rw [ha] at hk
        exact .inl ⟨Std.ExtTreeMap.mem_keys.mpr hk, hunk⟩
  | kick ha => exact h.counted.woken_kickAgent hN ha id
  | kickThread ht => exact h.counted.woken_kickThread hN ht id
  | start => exact woken_of_thread rfl
  | @take t ch comms k ht hk =>
      have hin' : s.clients.clientExists id := by
        rcases hin with hin | hin
        · exact .inl (CommContainer.mem_erase.mp hin).2
        · rcases CommContainer.mem_insert.mp hin with rfl | hin
          · exact .inl hk
          · exact .inr hin
      have hw : ({ s with clients := ⟨s.clients.clients.erase k, s.clients.excluded.insert k⟩ }
          : Running B N M).woken id := h.woken hin' hun
      exact hw.thread ht (fun hwakes => by rw [wakes_enter]; exact hwakes)
  | @empty t ch comms ht hno =>
      -- whatever has unprocessed data is excluded, and somebody else looks at it
      have hexcl : id ∈ s.clients.excluded := hin.resolve_left (hno id)
      refine woken.other (x := .idle) (hok id ?_ hin) rfl
      rcases s.clients.takeOut_cases with ⟨htake, -⟩ | ⟨k, hk, -⟩
      · unfold abandoned
        simp only [ht, htake, Option.isNone_none, if_true, List.mem_filter, Std.ExtTreeSet.mem_toList]
        exact ⟨hexcl, hun⟩
      · exact absurd hk (hno k)
  | @stage t ch comms k st ht =>
      by_cases hid : id = k
      · -- its own communicator: the thread is going to check it
        refine woken_of_thread ?_
        have hheld : s.held t = comms ++ [k] := congrArg Thread.comms ht
        have hnodup := hx.custody.nodup t
        rw [hheld, List.nodup_append] at hnodup
        rw [wakes_afterStage, hid]
        simp only [Bool.not_eq_true', List.contains_eq_mem, decide_eq_false_iff_not]
        exact fun hin => hnodup.2.2 k hin k (List.mem_singleton.mpr rfl) rfl
      · rw [unprocessed_update (fun he => absurd he hid) rfl] at hun
        have hw : (s.setComm k (Comm.runStage conf ch st (s.comms k)).1).woken id := h.woken hin hun
        exact hw.thread ht (fun hwakes => by rw [wakes_afterStage]; exact hwakes)
  | @check t ch comms k ht =>
      cases hk : s.unprocessed k with
      | true => exact woken_of_thread rfl
      | false =>
          have hid : id ≠ k := by
            rintro rfl
            have hsame : s.unprocessed id = true := hun
            rw [hk] at hsame
            cases hsame
          exact (h.woken hin hun).thread ht (wakes_passed hid)
  | @caught t ch comms k e ht =>
      unfold catchStep at hin hun ⊢
      cases he : disconnects e with
      | true =>
          cases hk : (s.clients.erase k).1 with
          | true =>
              -- the communicator leaves the container
              simp only [he, hk, if_true] at hin hun ⊢
              obtain ⟨hid, hin'⟩ := clientExists_erase hin
              have hw : ({ s with clients := (s.clients.erase k).2, erased := k :: s.erased }
                  : Running B N M).woken id := h.woken hin' hun
              exact hw.thread ht (wakes_passed hid)
          | false =>
              simp only [he, hk, if_true] at hin hun ⊢
              have hid : id ≠ k := by
                rintro rfl
                exact of_decide_eq_false hk hin
              exact (h.woken hin hun).thread ht (wakes_passed hid)
      | false =>
          simp only [he] at hin hun ⊢
          have hun' : s.unprocessed id = true := by
            rw [← hun]
            exact (unprocessed_update (fun _ => Comm.sameData_handleException e _) rfl).symm
          have hw : (s.setComm k (handleException e (s.comms k))).woken id := h.woken hin hun'
          by_cases hid : id = k
          · -- nobody checks the communicator whose exception was handled
            have hother : (s.setThread t .idle).woken id := by
              refine hok id ?_ hin
              unfold abandoned
              simp only [ht, he]
              rw [hid] at hun' ⊢
              exact List.mem_filter.mpr ⟨List.mem_singleton.mpr rfl, hun'⟩
            exact woken.other (s := s.setComm k _) (x := .idle) hother rfl
          · exact hw.thread ht (wakes_passed hid)
  | @removed t ch comms k ht =>
      have hun' : s.unprocessed id = true := by
        rw [← hun]
        exact (unprocessed_update (fun _ => Comm.sameData_handleDisconnected _) rfl).symm
      have hw : (s.setComm k (handleDisconnected (s.comms k))).woken id := h.woken hin hun'
      exact hw.thread ht (fun hwakes => hwakes)
  | @getBack t ch k comms ht =>
      have hw : ({ s with clients := s.clients.getBack k } : Running B N M).woken id :=
        h.woken (clientExists_getBack hin) hun
      exact hw.thread ht (fun hwakes => by cases hwakes)
  | finish ht => exact (h.woken hin hun).thread ht (fun hwakes => by cases hwakes)

/-- What a run keeps whose steps take no last wake-up away. -/
theorem Attended.run (hN : 0 < N) {as : List (Act B N M)}
    (hok : Machine.Guarded (step conf) (KeepsWoken conf) Running.init as)
    (hrun : Machine.run (step conf) Running.init as = some s) : s.Attended := by
  have h : s.Attended ∧ s.Exclusive :=
    Machine.run_guarded_invariant (fun s => s.Attended ∧ s.Exclusive)
      (fun _ _ _ h hok hs =>
        ⟨⟨h.1.counted.move (step_move hs), fun hin hun => h.1.woken_move h.2 hN hok (step_move hs) hin hun⟩,
          h.2.move (step_move hs)⟩)
      as _ _ ⟨.init, .init⟩ hok hrun
  exact h.1

/-! ## The guarantee -/

/-- No kick handler is queued, and no thread is inside `process`, a send or a handler. -/
structure Quiescent (s : Running B N M) : Prop where
  kickQueue : s.kickQueue = 0
  threads   : ∀ t, s.threads t = .idle
  agents    : ∀ a, s.agents a = .idle

/-- In a quiescent state nobody is going to look at anything. -/
theorem Quiescent.not_woken (h : s.Quiescent) (id : CommId) : ¬ s.woken id := by
  rintro (hq | ⟨a, ha⟩ | ⟨t, ht⟩)
  · rw [h.kickQueue] at hq; exact Nat.lt_irrefl 0 hq
  · rw [h.agents] at ha; cases ha
  · rw [h.threads] at ht; cases ht

/-- **Work is never stranded without a wake-up** as long as a thread runs the dispatcher and no step takes the
    last wake-up of a communicator with unprocessed data away. In every quiescent state such a run reaches,
    every communicator in the container has neither unprocessed incoming nor unprocessed outgoing data. -/
theorem no_stranded_work (conf : Config B) (hN : 0 < N) (as : List (Act B N M)) (s : Running B N M)
    (hok : Machine.Guarded (step conf) (KeepsWoken conf) Running.init as)
    (hrun : Machine.run (step conf) Running.init as = some s) (hquiet : s.Quiescent) (id : CommId)
    (hin : s.clients.clientExists id) :
    (s.comms id).mtIsUnprocessedIncoming = false ∧ (s.comms id).mtIsUnprocessedOutgoing = false := by
  have h : s.unprocessed id ≠ true := fun hun => hquiet.not_woken id ((Attended.run hN hok hrun).woken hin hun)
  unfold unprocessed at h
  exact Bool.or_eq_false_iff.mp (Bool.eq_false_iff.mpr h)

/-- A send of thread `a`, and its kick. -/
def sentOne (a : Fin M) : List (Act .lp64 N M) := [.send a 0 ⟨[0x61], 7, 0, 0, []⟩, .kick a, .kick a, .kick a]

/-- Thread `t` processes a connection and returns; a message is sent, and the thread is kicked for it. -/
def kickedOne (a : Fin M) (t : Fin N) : List (Act .lp64 N M) :=
  accepted a 0 ++ List.replicate 13 (.thread t .plain) ++ sentOne a ++ List.replicate 15 (.thread t .plain)

/-- The guarantee on that run: the message was written. -/
theorem no_stranded_work_kickedOne : ∃ s : Running .lp64 1 1,
    Machine.run (step Config.plain) Running.init (kickedOne 0 0) = some s
      ∧ s.clients.clientExists 0 ∧ (s.comms 0).pushes.map PrepearedMessage.id = [7]
      ∧ (s.comms 0).mtIsUnprocessedIncoming = false ∧ (s.comms 0).mtIsUnprocessedOutgoing = false :=
  ⟨_, rfl, by decide +kernel, by decide +kernel,
    no_stranded_work .plain (by decide) (kickedOne 0 0) _ (by decide +kernel) rfl
      ⟨rfl, Fin.forall_fin_one.mpr rfl, Fin.forall_fin_one.mpr rfl⟩ 0 (by decide +kernel)⟩

/-- Thread `t` processes a connection, checks it and asks for the next one. A message is sent; thread `u`, which
    is kicked for it, finds nothing to take out and returns; then `t` gives the communicator back. -/
def leftBehind (a : Fin M) (t u : Fin N) : List (Act .lp64 N M) :=
  accepted a 0 ++ List.replicate 10 (.thread t .plain) ++ sentOne a ++ List.replicate 3 (.thread u .plain)
    ++ List.replicate 3 (.thread t .plain)

/-- **Two threads can strand a message**: it stays in the queue, and nobody is going to look. -/
theorem work_stranded : ¬ ∀ (as : List (Act .lp64 2 1)) (s : Running .lp64 2 1),
    Machine.run (step Config.plain) Running.init as = some s → s.Quiescent → ∀ id, s.clients.clientExists id →
    (s.comms id).mtIsUnprocessedIncoming = false ∧ (s.comms id).mtIsUnprocessedOutgoing = false := by
  intro hclaim
  have hquiet := hclaim (leftBehind 0 0 1) _ rfl
    ⟨rfl, Fin.forall_fin_two.mpr ⟨rfl, rfl⟩, Fin.forall_fin_one.mpr rfl⟩ 0 (by decide +kernel)
  exact absurd hquiet.2 (by decide +kernel)

end Running

end Unicomm
