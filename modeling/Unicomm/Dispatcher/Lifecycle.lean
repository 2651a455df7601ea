import Unicomm.Lib.Lifecycle
import Unicomm.Dispatcher.Steps

/-!
# `Dispatcher.Lifecycle` — when the handlers of a session are called

A session is opened by its connected handler, or refused by its constructor, used by the other handlers, and
closed by the disconnected one. What keeps the order is spread over both sides: the communicator creates its
session once, because the flag `_just_connected` is set once and cleared by the stage that reads it
(`InPhase.effect`), and the dispatcher calls the disconnected handler once and last, because only the thread
that erased the communicator calls it and nobody takes an erased communicator out (`Ordered.move`).
-/

namespace Unicomm

open Lifecycle (Mark Phase)

variable {B : Build}

/-- What an event is in the life of a session. -/
def Event.lifeMark? : Event B → Option Mark
  | .connected         => some .opened
  | .sessionCtorThrew  => some .refused
  | .messageArrived _  => some .used
  | .messageSent _     => some .used
  | .messageTimeout _  => some .used
  | .error             => some .used
  | .afterProcessed    => some .used
  | .disconnected      => some .closed
  | _                  => none

namespace Comm

variable {conf : Config B} {ch : Choice B} {c c' : Comm B} {p : Phase}

/-- The calls of the session's handlers so far, in order. -/
def handlerCalls (c : Comm B) : List (Event B) := Lifecycle.calls Event.lifeMark? c.history

/-! ## One communicator -/

/-- The connection was announced, and the announcement was handled. -/
def Announced (c : Comm B) : Prop := c.justConnected = false ∧ c.connectPending = false

/-- The data of a communicator whose session is in a phase. -/
def Fits (c : Comm B) : Phase → Prop
  | .fresh       => c.userSession = false ∧ (c.justConnected = true → c.connectPending = false)
  | .failed      => c.userSession = false ∧ c.Announced
  | .live | .gone => c.userSession = true ∧ c.Announced

/-- The session is in a phase: by its history, and by the data. -/
structure InPhase (c : Comm B) (p : Phase) : Prop where
  history : Lifecycle.InPhase Event.lifeMark? c.history p
  fits    : c.Fits p

theorem InPhase.create (id : CommId) : (Comm.create id : Comm B).InPhase .fresh :=
  ⟨rfl, rfl, fun h => by cases h⟩

/-- `Fits` reads three fields. -/
theorem Fits.congr (h : c.Fits p) (hs : c'.userSession = c.userSession)
    (hj : c'.justConnected = c.justConnected) (hp : c'.connectPending = c.connectPending) : c'.Fits p := by
  cases p <;> unfold Fits at h ⊢ <;> simp only [Announced, hs, hj, hp] at h ⊢ <;> exact h

/-- What neither calls a handler nor creates a session changes no phase. -/
theorem InPhase.frame (h : c.InPhase p) (es : List (Event B)) (hh : c'.history = c.history ++ es)
    (hes : ∀ e ∈ es, e.lifeMark? = none) (hs : c'.userSession = c.userSession)
    (hj : c'.justConnected = c.justConnected) (hp : c'.connectPending = c.connectPending) : c'.InPhase p :=
  ⟨by rw [hh]; exact h.history.append hes, h.fits.congr hs hj hp⟩

/-- The same for what records nothing. -/
theorem InPhase.silent (h : c.InPhase p) (hh : c'.history = c.history) (hs : c'.userSession = c.userSession)
    (hj : c'.justConnected = c.justConnected) (hp : c'.connectPending = c.connectPending) : c'.InPhase p :=
  h.frame [] (by rw [hh, List.append_nil]) (List.forall_mem_nil _) hs hj hp

/-- A session that is not closed and exists is live. -/
theorem InPhase.live (h : c.InPhase p) (hgone : p ≠ .gone) (hs : c.userSession = true) : p = .live := by
  cases p with
  | fresh | failed => have hno := h.fits.1; rw [hs] at hno; cases hno
  | live           => rfl
  | gone           => exact absurd rfl hgone

/-- **A handler is used.** -/
theorem InPhase.used (h : c.InPhase p) (hgone : p ≠ .gone) (hs : c.userSession = true) {e : Event B}
    (he : e.lifeMark? = some .used) : (c.log [e]).InPhase p := by
  obtain rfl := h.live hgone hs
  refine ⟨h.history.snoc ?_, h.fits⟩
  unfold Lifecycle.step
  rw [he]
  rfl

/-- **Every effect keeps the session from being closed**, and the life cycle. -/
theorem InPhase.effect (h : c.InPhase p) (hgone : p ≠ .gone) (he : Effect conf ch c c') :
    ∃ q, q ≠ .gone ∧ c'.InPhase q := by
  -- whoever finds the flag set is in the fresh phase: it is cleared in the others
  have hfresh : c.justConnected = true → p = .fresh ∧ c.connectPending = false := by
    intro hj
    cases p with
    | fresh         => exact ⟨rfl, h.fits.2 hj⟩
    | failed | live => have hno := h.fits.2.1; rw [hj] at hno; cases hno
    | gone          => exact absurd rfl hgone
  cases he with
  | connected hj =>
      obtain ⟨rfl, hpend⟩ := hfresh hj
      exact ⟨.live, by decide, h.history.snoc rfl, rfl, rfl, hpend⟩
  | ctorThrew hj hs =>
      obtain ⟨rfl, hpend⟩ := hfresh hj
      exact ⟨.failed, by decide, h.history.snoc rfl, hs, rfl, hpend⟩
  | nullSession hj hs =>
      obtain ⟨rfl, hpend⟩ := hfresh hj
      exact ⟨.fresh, by decide, h.history, hs, fun _ => hpend⟩
  | @sent hs it sent hsent =>
      have hreg : (c.regSent conf ch it sent).InPhase p := by
        unfold regSent
        split
        · exact h.frame [.registered it.mid] rfl (by simp [Event.lifeMark?]) rfl rfl rfl
        · exact h.silent rfl rfl rfl rfl
      have hs' : (c.regSent conf ch it sent).userSession = true := by unfold regSent; split <;> exact hs
      exact ⟨p, hgone, hreg.used hgone hs' rfl⟩
  | taken | clearUpdated | channelError => exact ⟨p, hgone, h.silent rfl rfl rfl rfl⟩
  | handshakeError => exact ⟨p, hgone, h.silent (by simp) (by simp) (by unfold disconnect; split <;> rfl)
      (by unfold disconnect; split <;> rfl)⟩
  | drawn hs => exact ⟨p, hgone, h.frame [.drawn _] rfl (by simp [Event.lifeMark?]) rfl rfl rfl⟩
  | pushed hs m => exact ⟨p, hgone, h.frame [.pushed m] rfl (by simp [Event.lifeMark?]) rfl rfl rfl⟩
  | @discarded m => exact ⟨p, hgone, h.frame [.discarded m.rid] rfl (by simp [Event.lifeMark?]) rfl rfl rfl⟩
  | request hs | afterProcessed hs => exact ⟨p, hgone, h.used hgone hs rfl⟩
  | @reply hs m =>
      have hc : (c.unregMessageTimeout m.rid).InPhase p := h.silent rfl rfl rfl rfl
      exact ⟨p, hgone, hc.used hgone hs rfl⟩
  | @timeout hs mid =>
      have hc : (c.unregMessageTimeout mid).InPhase p := h.silent rfl rfl rfl rfl
      exact ⟨p, hgone, hc.used hgone hs rfl⟩

/-- A send changes no phase. -/
theorem InPhase.send (h : c.InPhase p) (m : BinMessage B) : (c.prepareToWrite conf m).comm.InPhase p := by
  refine prepareToWrite_invariant (P := fun d => d.InPhase p) m h ?_ (fun d q hd => ?_)
  · exact h.frame [.drawn _] rfl (by simp [Event.lifeMark?]) rfl rfl rfl
  · exact hd.frame [.pushed q] rfl (by simp [Event.lifeMark?]) rfl rfl rfl

theorem mtAsioWriteHandler_flags (error : Nat) (intMid : MessageId B) (c : Comm B) :
    (c.mtAsioWriteHandler error intMid).justConnected = c.justConnected
      ∧ (c.mtAsioWriteHandler error intMid).connectPending = c.connectPending := by
  unfold mtAsioWriteHandler
  simp only
  split
  · exact ⟨rfl, rfl⟩
  · unfold mtRegSentMessage
    split <;> exact ⟨rfl, rfl⟩

/-- The connection is announced once. -/
theorem envStep_flags {e : EnvAct B} (h : c.envStep conf e = some c') (he : ∀ m, e ≠ .send m) :
    (c'.justConnected = c.justConnected ∧ c'.connectPending = c.connectPending)
      ∨ (c.connectPending = true ∧ c'.connectPending = false) := by
  cases e with
  | send m => exact absurd rfl (he m)
  | connectSuccess | handshake error =>
      rw [envStep] at h
      split at h <;> cases h
      exact .inr ⟨‹_›, rfl⟩
  | readAppend bytes | readUpdated | readFail error =>
      rw [envStep] at h
      split at h <;> cases h
      exact .inl ⟨rfl, rfl⟩
  | writeSome i n =>
      rw [envStep] at h
      split at h
      · split at h <;> cases h
        exact .inl ⟨rfl, rfl⟩
      · cases h
  | writeDone i | writeFail i error =>
      rw [envStep] at h
      split at h
      · next w _ =>
          split at h <;> cases h
          exact .inl (mtAsioWriteHandler_flags _ w.intMid (c.setWrite i { w with pending := false }))
      · cases h
  | disconnect =>
      rw [envStep] at h
      cases h
      unfold disconnect
      split <;> exact .inl ⟨rfl, rfl⟩

/-- **The environment calls no handler**, and announces the connection only in the fresh phase. -/
theorem InPhase.envStep {e : EnvAct B} (h : c.InPhase p) (hc : c.envStep conf e = some c')
    (he : ∀ m, e ≠ .send m) : c'.InPhase p := by
  obtain ⟨hs, -, -, mids, hh⟩ := envStep_frame hc he
  have hes : ∀ e ∈ mids.map (Event.writeFailed (B := B)), e.lifeMark? = none := by
    intro e he
    obtain ⟨mid, -, rfl⟩ := List.mem_map.mp he
    rfl
  rcases envStep_flags hc he with ⟨hj, hp⟩ | ⟨hp, hp'⟩
  · exact h.frame _ hh hes hs hj hp
  · refine ⟨by rw [hh]; exact h.history.append hes, ?_⟩
    cases p with
    | fresh => exact ⟨by rw [hs]; exact h.fits.1, fun _ => hp'⟩
    | failed | live | gone =>
        have hno := h.fits.2.2
        rw [hp] at hno
        cases hno

/-- **A stage keeps the session from being closed**, and the life cycle. -/
theorem InPhase.runStage {st : Stage B} (h : c.InPhase p) (hgone : p ≠ .gone) (hinv : c.SessionInv) :
    ∃ q, q ≠ .gone ∧ (runStage conf ch st c).1.InPhase q := by
  by_cases hpop : ∃ m, st = .popping m
  · obtain ⟨m, rfl⟩ := hpop
    exact ⟨p, hgone, h.frame [.handed m] rfl (by simp [Event.lifeMark?]) rfl rfl rfl⟩
  · have hstep : ∀ c c' : Comm B, Effect conf ch c c' → (∃ q, q ≠ .gone ∧ c.InPhase q) →
        ∃ q, q ≠ .gone ∧ c'.InPhase q := by
      rintro c c' he ⟨q, hq, hc⟩
      exact hc.effect hq he
    exact Effects.invariant hstep (runStage_effects hinv (fun m hm => hpop ⟨m, hm⟩)) ⟨p, hgone, h⟩

theorem InPhase.disconnect (h : c.InPhase p) : c.disconnect.InPhase p :=
  h.silent (by simp) (by simp) (by unfold Comm.disconnect; split <;> rfl)
    (by unfold Comm.disconnect; split <;> rfl)

/-- The closing call. -/
theorem InPhase.closed (h : c.InPhase p) (hgone : p ≠ .gone) (hs : c.userSession = true) :
    (c.log [.disconnected]).InPhase .gone := by
  obtain rfl := h.live hgone hs
  exact ⟨h.history.snoc rfl, h.fits⟩

end Comm

/-! ## All of them, and the threads -/

namespace Thread

/-- The communicator for which the thread can still call handlers, the disconnected one apart. -/
def working? : Thread B → Option CommId
  | .processing _ id _ => some id
  | .caught _ id _     => some id
  | _                  => none

/-- The communicator whose disconnected handler the thread is about to call. -/
def closing? : Thread B → Option CommId
  | .removed _ id => some id
  | _             => none

end Thread

namespace Running

variable {N M : Nat} {conf : Config B} {s s' : Running B N M} {a : Act B N M}

/-! ### Who is erased -/

/-- **An erased communicator** is one whose `catch` block runs, and the thread goes on to close it; nothing else
    leads a thread there. -/
theorem Move.erased (hm : Move conf s a s') :
    (s'.erased = s.erased ∧ ∀ t id, (s'.threads t).closing? = some id → (s.threads t).closing? = some id)
      ∨ ∃ t comms id e, s.threads t = .caught comms id e ∧ s'.erased = id :: s.erased
          ∧ s'.threads = Function.update s.threads t (.removed comms id) := by
  -- a thread that does not close a communicator behind the step did not come to close one
  have hupdate : ∀ {t' : Fin N} {x : Thread B}, x.closing? = none → ∀ t id,
      (Function.update s.threads t' x t).closing? = some id → (s.threads t).closing? = some id := by
    intro t' x hx t id ht
    rw [Function.update_apply] at ht
    split at ht
    · rw [hx] at ht; cases ht
    · exact ht
  cases hm with
  | accept | comm | report | send | sendAllPrimary | sendAllExcluded | readAppend | readUpdated =>
      exact .inl ⟨rfl, fun _ _ h => h⟩
  | @kick a mids k =>
      obtain ⟨-, -, he, ht, -⟩ := s.kickStep_frame k
      refine .inl ⟨he, fun t id h => ?_⟩
      rw [← ht]
      exact h
  | @kickThread t' ch comms k =>
      obtain ⟨-, -, he, ht, -⟩ := s.kickStep_frame k
      refine .inl ⟨he, fun t id h => ?_⟩
      unfold setThread at h
      rw [ht] at h
      exact hupdate (by split <;> rfl) t id h
  | start | empty | removed | getBack | finish => exact .inl ⟨rfl, hupdate rfl⟩
  | take => exact .inl ⟨rfl, hupdate (by unfold enter; split <;> rfl)⟩
  | @stage t' ch comms id st =>
      exact .inl ⟨rfl, hupdate (by cases (Comm.runStage conf ch st (s.comms id)).2 <;> rfl)⟩
  | check => exact .inl ⟨rfl, hupdate (by split <;> rfl)⟩
  | @caught t' ch comms id e ht =>
      unfold catchStep
      simp only
      split
      · split
        · exact .inr ⟨t', comms, id, e, ht, rfl, rfl⟩
        · exact .inl ⟨rfl, hupdate rfl⟩
      · exact .inl ⟨rfl, hupdate rfl⟩

/-- A thread comes to close what it worked for. -/
theorem Move.closing (hm : Move conf s a s') {t : Fin N} {id : CommId} (h : (s'.threads t).closing? = some id) :
    (s.threads t).closing? = some id ∨ (s.threads t).working? = some id := by
  rcases hm.erased with ⟨-, hold⟩ | ⟨t', comms, k, e, hcaught, -, hthreads⟩
  · exact .inl (hold t id h)
  · rw [hthreads, Function.update_apply] at h
    split at h
    · next ht => cases h; exact .inr (by rw [ht, hcaught]; rfl)
    · exact .inl h

/-- What is erased stays erased. -/
theorem Move.erased_mono (hm : Move conf s a s') {id : CommId} (hid : id ∈ s.erased) : id ∈ s'.erased := by
  rcases hm.erased with ⟨he, -⟩ | ⟨t, comms, k, e, -, he, -⟩ <;> rw [he]
  · exact hid
  · exact List.mem_cons_of_mem k hid

/-- A thread gets to work for what it takes out of the primary collection. -/
theorem Move.working (hm : Move conf s a s') {t : Fin N} {id : CommId}
    (h : (s'.threads t).working? = some id) : (s.threads t).working? = some id ∨ id ∈ s.clients.clients := by
  rcases hm.threadStep t with ⟨hsame, -⟩ | ⟨ch, -, hstep⟩
  · exact .inl (by rw [← hsame, h])
  · generalize s.threads t = x at hstep ⊢
    generalize s'.threads t = y at hstep h
    cases hstep with
    | take hid => unfold enter at h; split at h <;> cases h; exact .inr hid
    | @stage comms k st =>
        refine .inl ?_
        cases hn : (Comm.runStage conf ch st (s.comms k)).2 <;> rw [hn] at h <;> cases h <;> rfl
    | check => split at h <;> cases h
    | kick => split at h <;> cases h
    | start | empty | exception | erased | disconnected | getBack | finish => cases h

/-! ### The invariant -/

/-- **Every session keeps to its life cycle.** One that is closed was erased, and no thread is about to close it
    again; a thread that can call other handlers has a communicator that was not erased. -/
structure Ordered (s : Running B N M) : Prop where
  phase   : ∀ id, ∃ p, (s.comms id).InPhase p
    ∧ (p = .gone → id ∈ s.erased ∧ ∀ t, (s.threads t).closing? ≠ some id)
  working : ∀ {t id}, (s.threads t).working? = some id → id ∉ s.erased
  closing : ∀ {t id}, (s.threads t).closing? = some id → id ∈ s.erased

theorem Ordered.init : (Running.init : Running B N M).Ordered where
  phase id  := ⟨.fresh, Comm.InPhase.create id, fun h => nomatch h⟩
  working h := nomatch h
  closing h := nomatch h

/-- A thread holds the communicator it works for. -/
theorem mem_held_of_working {t : Fin N} {id : CommId} (h : (s.threads t).working? = some id) :
    id ∈ s.held t := by
  show id ∈ (s.threads t).comms
  cases hx : s.threads t <;> rw [hx] at h <;> cases h <;> exact List.mem_append_right _ List.mem_cons_self

theorem mem_held_of_closing {t : Fin N} {id : CommId} (h : (s.threads t).closing? = some id) :
    id ∈ s.held t := by
  show id ∈ (s.threads t).comms
  cases hx : s.threads t <;> rw [hx] at h <;> cases h
  exact List.mem_append_right _ List.mem_cons_self

/-- The threads after a move. -/
theorem Ordered.threads (h : s.Ordered) (hx : s.Exclusive) (hm : Move conf s a s') {t : Fin N} {id : CommId} :
    ((s'.threads t).working? = some id → id ∉ s'.erased)
      ∧ ((s'.threads t).closing? = some id → id ∈ s'.erased) := by
  constructor
  · intro ht
    have hold := hm.working ht
    have hno : id ∉ s.erased := hold.elim h.working (fun hid => (hx.primary hid).2)
    rcases hm.erased with ⟨he, -⟩ | ⟨t', comms, k, e, hcaught, he, hthreads⟩ <;> rw [he]
    · exact hno
    · -- if `id` is the one that is erased now, the thread that erases it is this one, and works no more
      refine List.not_mem_cons_of_ne_of_not_mem (fun hk => ?_) hno
      have hk' : id ∈ s.held t' := mem_held_of_working (by rw [hcaught, hk]; rfl)
      rcases hold with hold | hold
      · have htt := hx.custody.apart (mem_held_of_working hold) hk'
        rw [hthreads, htt, Function.update_self] at ht
        cases ht
      · exact hx.custody.away hk' hold
  · intro ht
    rcases hm.erased with ⟨-, hold⟩ | ⟨t', comms, k, e, hcaught, he, hthreads⟩
    · exact hm.erased_mono (h.closing (hold t id ht))
    · rw [hthreads, Function.update_apply] at ht
      split at ht
      · cases ht; rw [he]; exact List.mem_cons_self
      · exact hm.erased_mono (h.closing ht)

/-- **Every move keeps the sessions in order.** -/
theorem Ordered.move (h : s.Ordered) (hx : s.Exclusive) (hs : s.Sessions) (hm : Move conf s a s') :
    s'.Ordered := by
  refine ⟨fun id => ?_, (h.threads hx hm).1, (h.threads hx hm).2⟩
  obtain ⟨p, hp, hgone⟩ := h.phase id
  -- what does not close the session leaves a closed one closed
  have hkeep : p = .gone → id ∈ s'.erased ∧ ∀ t, (s'.threads t).closing? ≠ some id := fun hp =>
    ⟨hm.erased_mono (hgone hp).1,
      fun t ht => (hm.closing ht).elim ((hgone hp).2 t) (fun ht => h.working ht (hgone hp).1)⟩
  -- and a thread that works for the communicator finds it open
  have hopen : ∀ {t}, (s.threads t).working? = some id → p ≠ .gone := fun ht hp => h.working ht (hgone hp).1
  have hstep := hm.commStep id
  generalize s'.comms id = c at hstep ⊢
  cases hstep with
  | same          => exact ⟨p, hp, hkeep⟩
  | env he hc     => exact ⟨p, hp.envStep hc he, hkeep⟩
  | sends hc      => exact ⟨p, hc.invariant (fun c => c.InPhase p) (fun _ m h => h.send m) hp, hkeep⟩
  | stage ha ht =>
      obtain ⟨q, hq, hc⟩ := hp.runStage (hopen (by rw [ht]; rfl)) (hs.session id)
      exact ⟨q, hc, fun he => absurd he hq⟩
  | @exception t ch comms e ha ht =>
      have hno : p ≠ .gone := hopen (by rw [ht]; rfl)
      refine ⟨p, ?_, hkeep⟩
      rcases handleException_cases e (s.comms id) with he | ⟨hsess, he⟩ | he <;> rw [he]
      · exact hp.disconnect
      · exact hp.used hno hsess rfl
      · exact hp
  | @disconnected t ch comms ha ht =>
      have hclosing : (s.threads t).closing? = some id := by rw [ht]; rfl
      have hno : p ≠ .gone := fun hp => (hgone hp).2 t hclosing
      rcases handleDisconnected_cases (s.comms id) with ⟨hsess, he⟩ | ⟨-, he⟩ <;> rw [he]
      · refine ⟨.gone, hp.disconnect.closed hno (by rw [Comm.disconnect_userSession, hsess]), fun _ => ?_⟩
        refine ⟨hm.erased_mono (h.closing hclosing), fun t' ht' => ?_⟩
        -- only the thread that closed the session was about to, and it has gone on
        rcases hm.closing ht' with hold | hold
        · have htt : t' = t := hx.custody.apart (mem_held_of_closing hold) (mem_held_of_closing hclosing)
          rcases hm.threadStep t with ⟨-, hother⟩ | ⟨ch', -, hstep⟩
          · exact hother ch ha
          · rw [htt] at ht'
            rw [ht] at hstep
            generalize s'.threads t = y at hstep ht'
            cases hstep
            cases ht'
        · exact h.working hold (h.closing hclosing)
      · exact ⟨p, hp.disconnect, hkeep⟩

/-- Every reachable state. -/
theorem Ordered.run {as : List (Act B N M)} (hrun : Machine.run (step conf) Running.init as = some s) :
    s.Ordered := by
  have h : s.Ordered ∧ s.Exclusive ∧ s.Sessions :=
    Machine.run_invariant (fun s => s.Ordered ∧ s.Exclusive ∧ s.Sessions)
      (fun _ _ _ h hs =>
        ⟨h.1.move h.2.1 h.2.2 (step_move hs), h.2.1.move (step_move hs), h.2.2.move (step_move hs)⟩)
      as _ _ ⟨.init, .init, .init⟩ hrun
  exact h.1

/-! ## The guarantee -/

/-- **The events of a session follow its life cycle.** In every reachable state, for every communicator and
    whatever its handlers and the constructor of its session threw: the connected handler was called first, if
    any was, and once; no handler was called if the constructor threw; the disconnected handler was called at
    most once, and nothing after it. -/
theorem session_lifecycle (conf : Config B) (as : List (Act B N M)) (s : Running B N M)
    (hrun : Machine.run (step conf) Running.init as = some s) (id : CommId) :
    ((s.comms id).handlerCalls = []
        ∨ ∃ rest, (s.comms id).handlerCalls = .connected :: rest ∧ .connected ∉ rest)
      ∧ (.sessionCtorThrew ∈ (s.comms id).history → (s.comms id).handlerCalls = [])
      ∧ (s.comms id).handlerCalls.count .disconnected ≤ 1
      ∧ ∀ before after, (s.comms id).handlerCalls = before ++ .disconnected :: after → after = [] := by
  obtain ⟨p, ⟨hp, -⟩, -⟩ := (Ordered.run hrun).phase id
  have hlast : ∀ before after, (s.comms id).handlerCalls = before ++ .disconnected :: after → after = [] :=
    fun before after hcalls => hp.closed_last hcalls rfl
  refine ⟨?_, fun hthrew => hp.refused hthrew rfl, ?_, hlast⟩
  · refine hp.opened_first.imp_right ?_
    rintro ⟨o, rest, hcalls, ho, hrest⟩
    have heq : o = .connected := by cases o <;> cases ho; rfl
    exact ⟨rest, heq ▸ hcalls, fun hin => hrest _ hin rfl⟩
  · by_cases hin : .disconnected ∈ (s.comms id).handlerCalls
    · obtain ⟨before, after, hcalls, hno⟩ := List.eq_append_cons_of_mem hin
      rw [hcalls, hlast before after hcalls, List.count_append, List.count_eq_zero_of_not_mem hno]
      exact Nat.le_refl 1
    · rw [List.count_eq_zero_of_not_mem hin]
      exact Nat.zero_le 1

/-- The guarantee for a session whose connected handler throws a disconnect, while another thread processes
    another communicator. -/
theorem session_lifecycle_takenOut : ∃ s,
    Machine.run (step Config.plain) Running.init (takenOut ++ [.thread 1 .plain, .thread 0 .plain]) = some s
      ∧ (s.comms 0).handlerCalls = [.connected, .disconnected]
      ∧ ((s.comms 0).handlerCalls = []
          ∨ ∃ rest, (s.comms 0).handlerCalls = .connected :: rest ∧ .connected ∉ rest)
      ∧ (.sessionCtorThrew ∈ (s.comms 0).history → (s.comms 0).handlerCalls = [])
      ∧ (s.comms 0).handlerCalls.count .disconnected ≤ 1
      ∧ ∀ before after, (s.comms 0).handlerCalls = before ++ .disconnected :: after → after = [] :=
  ⟨_, rfl, by decide +kernel,
    session_lifecycle .plain (takenOut ++ [.thread 1 .plain, .thread 0 .plain]) _ rfl 0⟩

end Running

end Unicomm
