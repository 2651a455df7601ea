import Unicomm.Lib.Custody
import Unicomm.Dispatcher.System

/-!
# `Dispatcher.Exclusion` — who may process a communicator

The threads hold what they took out, the primary collection is what is free: `Exclusive` is the `Custody` of
the library together with what the two collections mean, and every move keeps it (`Exclusive.move`), whatever
`mt_process` throws. That a communicator is never lost and never processed by two threads follows
(`processed_by_one`).
-/

namespace Unicomm

variable {B : Build} {N M : Nat} {conf : Config B}

namespace Running

/-- What each thread of the dispatcher holds. -/
def held (s : Running B N M) : Fin N → List CommId := Thread.comms ∘ s.threads

/-- **Nothing is in two places, and everything is somewhere.** -/
structure Exclusive (s : Running B N M) : Prop where
  custody  : Custody {id | id ∈ s.clients.clients} s.held
  primary  : ∀ {id}, id ∈ s.clients.clients → id ∈ s.inserted ∧ id ∉ s.erased
  excluded : ∀ {id}, id ∈ s.clients.excluded ↔ id ∉ s.erased ∧ ∃ t, id ∈ s.held t
  known    : ∀ {id t}, id ∈ s.held t → id ∈ s.inserted
  erased   : ∀ {id}, id ∈ s.erased → id ∈ s.inserted
  present  : ∀ {id}, id ∈ s.inserted → id ∉ s.erased → id ∈ s.clients.clients ∨ id ∈ s.clients.excluded

variable {s s' : Running B N M}

theorem Exclusive.init : (Running.init : Running B N M).Exclusive where
  custody    := Custody.start _
  primary h  := absurd h Std.ExtTreeSet.not_mem_empty
  excluded   :=
    ⟨fun h => absurd h Std.ExtTreeSet.not_mem_empty, fun h => absurd h.2.choose_spec List.not_mem_nil⟩
  known h    := absurd h List.not_mem_nil
  erased h   := absurd h List.not_mem_nil
  present h  := absurd h List.not_mem_nil

/-- It depends on the container, the two lists of identifiers and what the threads hold. -/
theorem Exclusive.congr (h : s.Exclusive) (hc : s'.clients = s.clients) (hi : s'.inserted = s.inserted)
    (he : s'.erased = s.erased) (hl : s'.held = s.held) : s'.Exclusive := by
  constructor
  · rw [hc, hl]; exact h.custody
  · rw [hc, hi, he]; exact h.primary
  · rw [hc, he, hl]; exact h.excluded
  · rw [hi, hl]; exact h.known
  · rw [hi, he]; exact h.erased
  · rw [hc, hi, he]; exact h.present

theorem held_setThread (s : Running B N M) (t : Fin N) (x : Thread B) :
    (s.setThread t x).held = Function.update s.held t x.comms := Function.comp_update ..

/-- A thread that moves without taking or giving back. -/
theorem held_setThread_eq {t : Fin N} {x : Thread B} (hx : x.comms = (s.threads t).comms) :
    (s.setThread t x).held = s.held := by
  rw [held_setThread, hx]
  exact Function.update_eq_self ..

theorem Exclusive.setThread (h : s.Exclusive) {t : Fin N} {x : Thread B} (hx : x.comms = (s.threads t).comms) :
    (s.setThread t x).Exclusive := h.congr rfl rfl rfl (held_setThread_eq hx)

theorem kickStep_frame (s : Running B N M) (k : Kick) :
    (s.kickStep k).2.toDispatcher = s.toDispatcher ∧ (s.kickStep k).2.inserted = s.inserted
      ∧ (s.kickStep k).2.erased = s.erased ∧ (s.kickStep k).2.threads = s.threads
      ∧ (s.kickStep k).2.agents = s.agents := by
  cases k <;> exact ⟨rfl, rfl, rfl, rfl, rfl⟩

theorem Exclusive.kickStep (h : s.Exclusive) (k : Kick) : (s.kickStep k).2.Exclusive := by
  obtain ⟨hd, hi, he, ht, -⟩ := s.kickStep_frame k
  exact h.congr (congrArg Dispatcher.clients hd) hi he (by rw [held, ht]; rfl)

/-- What nobody inserted is nowhere. -/
theorem Exclusive.not_clientExists (h : s.Exclusive) {id : CommId} (hid : id ∉ s.inserted) :
    ¬ s.clients.clientExists id := by
  rintro (hp | hx)
  · exact hid (h.primary hp).1
  · obtain ⟨t, ht⟩ := (h.excluded.mp hx).2
    exact hid (h.known ht)

/-! ## Every move keeps it -/

/-- `insert_comm` of a fresh communicator. -/
theorem Exclusive.accept (h : s.Exclusive) {id : CommId} (hid : id ∉ s.inserted) :
    ({ s with clients := s.clients.insert id, inserted := id :: s.inserted } : Running B N M).Exclusive := by
  have hno := h.not_clientExists hid
  have hmem : ∀ {k}, k ∈ (s.clients.insert id).clients ↔ k = id ∨ k ∈ s.clients.clients :=
    CommContainer.mem_clients_insert hno
  constructor
  · -- custody
    refine (h.custody.add (fun t ht => hid (h.known ht))).mono (fun k hk => ?_)
    exact hmem.mp hk
  · -- primary
    intro k hk
    rcases hmem.mp hk with rfl | hk
    · exact ⟨List.mem_cons_self, fun he => hid (h.erased he)⟩
    · exact ⟨List.mem_cons_of_mem _ (h.primary hk).1, (h.primary hk).2⟩
  · -- excluded
    simp only [CommContainer.insert_excluded]
    exact h.excluded
  · -- known
    exact fun ht => List.mem_cons_of_mem _ (h.known ht)
  · -- erased
    exact fun hk => List.mem_cons_of_mem _ (h.erased hk)
  · -- present
    intro k hk hke
    simp only [CommContainer.insert_excluded]
    rw [hmem]
    rcases List.mem_cons.mp hk with rfl | hk
    · exact .inl (.inl rfl)
    · exact (h.present hk hke).imp_left .inr

/-- `take_out`. -/
theorem Exclusive.take (h : s.Exclusive) {t : Fin N} {id : CommId} {x : Thread B} (hid : id ∈ s.clients.clients)
    (hx : x.comms = (s.threads t).comms ++ [id]) :
    ({ s with clients := ⟨s.clients.clients.erase id, s.clients.excluded.insert id⟩ }.setThread t x
      : Running B N M).Exclusive := by
  have hheld : ({ s with clients := ⟨s.clients.clients.erase id, s.clients.excluded.insert id⟩ }.setThread t x
      : Running B N M).held = Function.update s.held t (s.held t ++ [id]) := by
    rw [held_setThread, hx]; rfl
  have hmem : ∀ {k : CommId} {j : Fin N}, k ∈ Function.update s.held t (s.held t ++ [id]) j
      ↔ k ∈ s.held j ∨ (j = t ∧ k = id) := by
    intro k j
    rw [Custody.mem_update]
    split
    · next hj => rw [hj, List.mem_append, List.mem_singleton]; simp
    · next hj => simp [hj]
  constructor
  · -- custody
    rw [hheld]
    refine (h.custody.take (i := t) hid).mono (fun k hk => ?_)
    obtain ⟨hne, hk⟩ := CommContainer.mem_erase.mp hk
    exact ⟨hk, hne⟩
  · -- primary
    exact fun hk => h.primary (CommContainer.mem_erase.mp hk).2
  · -- excluded
    intro k
    rw [hheld]
    refine CommContainer.mem_insert.trans ?_
    constructor
    · rintro (rfl | hk)
      · exact ⟨(h.primary hid).2, t, hmem.mpr (.inr ⟨rfl, rfl⟩)⟩
      · obtain ⟨he, j, hj⟩ := h.excluded.mp hk
        exact ⟨he, j, hmem.mpr (.inl hj)⟩
    · rintro ⟨he, j, hj⟩
      rcases hmem.mp hj with hj | ⟨-, rfl⟩
      · exact .inr (h.excluded.mpr ⟨he, j, hj⟩)
      · exact .inl rfl
  · -- known
    intro k j hk
    rw [hheld] at hk
    rcases hmem.mp hk with hk | ⟨-, rfl⟩
    · exact h.known hk
    · exact (h.primary hid).1
  · -- erased
    exact h.erased
  · -- present
    intro k hk hke
    by_cases hkid : k = id
    · exact .inr (CommContainer.mem_insert.mpr (.inl hkid))
    · exact (h.present hk hke).imp (fun hk => CommContainer.mem_erase.mpr ⟨hkid, hk⟩)
        (fun hk => CommContainer.mem_insert.mpr (.inr hk))

/-- `remove_client`, called by a thread that holds the communicator. -/
theorem Exclusive.erase (h : s.Exclusive) {t : Fin N} {id : CommId} {x : Thread B} (hid : id ∈ s.held t)
    (hx : x.comms = (s.threads t).comms) :
    ({ s with clients := (s.clients.erase id).2, erased := id :: s.erased }.setThread t x
      : Running B N M).Exclusive := by
  have hheld : ({ s with clients := (s.clients.erase id).2, erased := id :: s.erased }.setThread t x
      : Running B N M).held = s.held := (held_setThread_eq hx).trans rfl
  constructor
  · -- custody
    rw [hheld]
    exact h.custody.mono (fun k hk => (CommContainer.mem_erase.mp hk).2)
  · -- primary
    intro k hk
    obtain ⟨hne, hk⟩ := CommContainer.mem_erase.mp hk
    exact ⟨(h.primary hk).1, List.not_mem_cons_of_ne_of_not_mem hne (h.primary hk).2⟩
  · -- excluded
    intro k
    rw [hheld]
    refine CommContainer.mem_erase.trans ?_
    change _ ↔ k ∉ id :: s.erased ∧ _
    rw [h.excluded, List.mem_cons, not_or, and_assoc]
  · -- known
    rw [hheld]; exact h.known
  · -- erased
    intro k hk
    rcases List.mem_cons.mp hk with rfl | hk
    · exact h.known hid
    · exact h.erased hk
  · -- present
    intro k hk hke
    obtain ⟨hne, hke⟩ := not_or.mp (fun hor => hke (List.mem_cons.mpr hor))
    exact (h.present hk hke).imp (fun hk => CommContainer.mem_erase.mpr ⟨hne, hk⟩)
      (fun hk => CommContainer.mem_erase.mpr ⟨hne, hk⟩)

/-- `get_back`. A communicator that was erased meanwhile does not come back. -/
theorem Exclusive.getBack (h : s.Exclusive) {t : Fin N} {id : CommId} {comms : List CommId}
    (ht : s.threads t = .returning (id :: comms)) :
    ({ s with clients := s.clients.getBack id }.setThread t (.returning comms) : Running B N M).Exclusive := by
  have hlist : s.held t = id :: comms := congrArg Thread.comms ht
  have hheld : ({ s with clients := s.clients.getBack id }.setThread t (.returning comms)
      : Running B N M).held = Function.update s.held t comms := held_setThread ..
  have hhold : id ∈ s.held t := by rw [hlist]; exact List.mem_cons_self
  -- the thread gives one communicator back, so of any other the same threads hold what they held
  have hother : ∀ {k}, k ≠ id → ((∃ j, k ∈ Function.update s.held t comms j) ↔ ∃ j, k ∈ s.held j) := by
    intro k hk
    refine exists_congr (fun j => ?_)
    rw [Custody.mem_update]
    split
    · next hj => rw [hj, hlist, List.mem_cons]; exact ⟨.inr, fun hor => hor.resolve_left hk⟩
    · exact Iff.rfl
  -- and nobody holds this one: not the thread, which held it once, nor another, which held it not at all
  have hself : ∀ j, id ∉ Function.update s.held t comms j := by
    intro j hj
    have hnodup := h.custody.nodup t
    rw [hlist, List.nodup_cons] at hnodup
    rw [Custody.mem_update] at hj
    split at hj
    · exact hnodup.1 hj
    · next hne => exact hne (h.custody.apart hj hhold)
  constructor
  · -- custody
    rw [hheld]
    refine (h.custody.giveBack hlist).mono (fun k hk => ?_)
    exact (CommContainer.mem_clients_getBack.mp hk).elim .inr (fun hk => .inl hk.1)
  · -- primary
    intro k hk
    rcases CommContainer.mem_clients_getBack.mp hk with hin | ⟨rfl, hin⟩
    · exact h.primary hin
    · exact ⟨h.known hhold, (h.excluded.mp hin).1⟩
  · -- excluded
    intro k
    rw [hheld]
    refine CommContainer.mem_excluded_getBack.trans ?_
    rw [h.excluded]
    by_cases hk : k = id
    · refine iff_of_false (fun hand => hand.2 hk) (fun hand => ?_)
      obtain ⟨j, hj⟩ := hand.2
      exact hself j (hk ▸ hj)
    · rw [hother hk, and_iff_left hk]
      exact Iff.rfl
  · -- known
    intro k j hk
    rw [hheld] at hk
    by_cases hkid : k = id
    · exact absurd (hkid ▸ hk) (hself j)
    · obtain ⟨i, hi⟩ := (hother hkid).mp ⟨j, hk⟩
      exact h.known hi
  · -- erased
    exact h.erased
  · -- present
    intro k hk hke
    by_cases hkid : k = id
    · refine .inl (CommContainer.mem_clients_getBack.mpr (.inr ⟨hkid, ?_⟩))
      exact h.excluded.mpr ⟨hke, t, hkid ▸ hhold⟩
    · exact (h.present hk hke).imp (fun hk => CommContainer.mem_clients_getBack.mpr (.inl hk))
        (fun hk => CommContainer.mem_excluded_getBack.mpr ⟨hk, hkid⟩)

/-- **Every move keeps it.** -/
theorem Exclusive.move {a : Act B N M} (h : s.Exclusive) (hm : Move conf s a s') : s'.Exclusive := by
  cases hm with
  | accept ha hid => exact (h.accept hid).congr rfl rfl rfl rfl
  -- what moves no communicator
  | comm | report | send | sendAllPrimary | sendAllExcluded | readAppend | readUpdated =>
      exact h.congr rfl rfl rfl rfl
  | kick => exact (h.kickStep _).congr rfl rfl rfl rfl
  | @start t ch ht =>
      have hk : ({ s with kickQueue := s.kickQueue - 1, kickCount := s.kickCount - 1 }
          : Running B N M).Exclusive := h.congr rfl rfl rfl rfl
      exact hk.setThread (congrArg Thread.comms ht).symm
  | @take t ch comms id ht hid =>
      refine h.take hid ?_
      rw [ht, enter]
      split <;> rfl
  | empty ht => exact h.setThread (congrArg Thread.comms ht).symm
  -- a thread keeps its communicators through every stage, and behind an exception
  | @stage t ch comms id st ht =>
      have hc : (s.setComm id (Comm.runStage conf ch st (s.comms id)).1).Exclusive := h.congr rfl rfl rfl rfl
      refine hc.setThread ?_
      change _ = (s.threads t).comms
      rw [ht]
      cases (Comm.runStage conf ch st (s.comms id)).2 <;> rfl
  | check ht => refine h.setThread ?_; rw [ht]; split <;> rfl
  | @kickThread t ch comms k ht =>
      refine (h.kickStep k).setThread ?_
      rw [(s.kickStep_frame k).2.2.2.1, ht]
      split <;> rfl
  | @caught t ch comms id e ht =>
      have hid : id ∈ s.held t := by
        rw [show s.held t = comms ++ [id] from congrArg Thread.comms ht]; simp
      rw [catchStep]
      split
      · simp only
        split
        · exact h.erase hid (congrArg Thread.comms ht).symm
        · exact h.setThread (congrArg Thread.comms ht).symm
      · exact Exclusive.setThread (s := s.setComm id _) (h.congr rfl rfl rfl rfl) (congrArg Thread.comms ht).symm
  | @removed t ch comms id ht =>
      rw [disconnectedStep]
      exact Exclusive.setThread (s := s.setComm id _) (h.congr rfl rfl rfl rfl) (congrArg Thread.comms ht).symm
  | getBack ht => exact h.getBack ht
  | finish ht => exact h.setThread (congrArg Thread.comms ht).symm

/-- Every reachable state. -/
theorem Exclusive.run {as : List (Act B N M)} (hrun : Machine.run (step conf) Running.init as = some s) :
    s.Exclusive :=
  Machine.run_invariant Exclusive (fun _ _ _ h hs => h.move (step_move hs)) as _ _ .init hrun

/-! ## What follows -/

/-- A thread holds the communicator it is processing. -/
theorem mem_held_of_inside {t : Fin N} {id : CommId} (h : (s.threads t).inside? = some id) : id ∈ s.held t := by
  change id ∈ (s.threads t).comms
  cases hx : s.threads t <;> rw [hx] at h <;> cases h
  exact List.mem_append_right _ List.mem_cons_self

/-- No communicator is in both collections. -/
theorem Exclusive.not_excluded (h : s.Exclusive) {id : CommId} (hid : id ∈ s.clients.clients) :
    id ∉ s.clients.excluded := by
  intro hx
  obtain ⟨-, t, ht⟩ := h.excluded.mp hx
  exact h.custody.away ht hid

/-- **Every connection is processed by at most one thread at a time, and none is lost.** In every reachable
    state, whatever `mt_process` threw: a communicator that was inserted and not erased is in exactly one of
    the two collections; one that is excluded is in the list of exactly one thread, once; no two threads are
    inside `mt_process` of one communicator, and none is inside that of a primary one, so a thread that takes
    it out finds its lock free; when no thread is inside `process_clients`, nothing is excluded. -/
theorem processed_by_one (conf : Config B) (as : List (Act B N M)) (s : Running B N M)
    (hrun : Machine.run (step conf) Running.init as = some s) :
    (∀ id ∈ s.inserted, id ∉ s.erased →
        (id ∈ s.clients.clients ∧ id ∉ s.clients.excluded) ∨ (id ∈ s.clients.excluded ∧ id ∉ s.clients.clients))
      ∧ (∀ id ∈ s.clients.excluded, ∃ t, (s.threads t).comms.count id = 1
          ∧ ∀ t', id ∈ (s.threads t').comms → t' = t)
      ∧ (∀ id t t', (s.threads t).inside? = some id → (s.threads t').inside? = some id → t = t')
      ∧ (∀ id ∈ s.clients.clients, ¬ s.mutexHeld id)
      ∧ ((∀ t, s.threads t = .idle) → ∀ id, id ∉ s.clients.excluded) := by
  have h : s.Exclusive := Exclusive.run hrun
  refine ⟨fun id hid hno => ?_, fun id hid => ?_, fun id t t' ht ht' => ?_, fun id hid => ?_,
    fun hidle id hid => ?_⟩
  · rcases h.present hid hno with hp | hx
    · exact .inl ⟨hp, h.not_excluded hp⟩
    · exact .inr ⟨hx, fun hp => h.not_excluded hp hx⟩
  · obtain ⟨-, t, ht⟩ := h.excluded.mp hid
    exact ⟨t, h.custody.count_eq_one ht⟩
  · exact h.custody.apart (mem_held_of_inside ht) (mem_held_of_inside ht')
  · rintro ⟨t, ht⟩
    exact h.custody.away (mem_held_of_inside ht) hid
  · obtain ⟨-, t, ht⟩ := h.excluded.mp hid
    rw [show s.held t = [] from congrArg Thread.comms (hidle t)] at ht
    exact List.not_mem_nil ht

/-- A connection is accepted, announced, and the dispatcher kicked for it. -/
def accepted (a : Fin M) (id : CommId) : List (Act .lp64 N M) :=
  [.accept a id, .comm id .connectSuccess, .kick a, .kick a, .kick a]

/-- Two connections, each taken out by a thread. The handler of the first one throws a disconnect. -/
def takenOut : List (Act .lp64 2 1) :=
  accepted 0 0 ++ accepted 0 1 ++ [.thread 0 .plain, .thread 1 .plain, .thread 0 .plain, .thread 1 .plain,
    .thread 0 { (Choice.plain : Choice .lp64) with handler := fun _ => some (.disconnectedError 1 "") },
    .thread 0 .plain, .thread 1 .plain]

/-- The guarantee on that run: the first one is erased, the second one excluded. -/
theorem processed_by_one_takenOut : ∃ s, Machine.run (step Config.plain) Running.init takenOut = some s
    ∧ s.erased = [0] ∧ s.clients.excluded.toList = [1]
    ∧ (∀ id ∈ s.inserted, id ∉ s.erased →
        (id ∈ s.clients.clients ∧ id ∉ s.clients.excluded) ∨ (id ∈ s.clients.excluded ∧ id ∉ s.clients.clients))
    ∧ (∀ id ∈ s.clients.excluded, ∃ t, (s.threads t).comms.count id = 1
        ∧ ∀ t', id ∈ (s.threads t').comms → t' = t)
    ∧ (∀ id t t', (s.threads t).inside? = some id → (s.threads t').inside? = some id → t = t')
    ∧ (∀ id ∈ s.clients.clients, ¬ s.mutexHeld id)
    ∧ ((∀ t, s.threads t = .idle) → ∀ id, id ∉ s.clients.excluded) :=
  ⟨_, rfl, rfl, rfl, processed_by_one .plain takenOut _ rfl⟩

end Running

end Unicomm
