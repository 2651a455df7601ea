import Mathlib.Data.List.Nodup
import Unicomm.Lib.Machine
import Unicomm.Comm.Ops

/-!
# `Comm.NewMid` — `new_mid` called from several threads

`new_mid` is an atomic increment of `_mesid`, a second one if the first gave the undefined identifier, and then
a **separate load** of `_mesid`. `Comm.newMid` takes these steps at once; here any number of threads take them
one by one. A call returns what the counter is when it loads it, which is its own value only if nobody has
incremented the counter since (`Undisturbed`). Then all calls return different, defined identifiers
(`newMid_unique`); any other step can at once be followed by two loads of the same value, or by the load of an
undefined one.
-/

namespace Unicomm

variable {B : Build} {N : Nat}

namespace NewMid

/-- Where a thread stands in `new_mid`. -/
inductive Pos where
  | idle
  /-- `++_mesid` gave the undefined identifier; `++_mesid` comes again. -/
  | skipping
  /-- `return _mesid` comes next. -/
  | loading
  deriving DecidableEq, Repr

/-- The counter, the threads, and the identifiers returned so far, oldest first. -/
structure State (B : Build) (N : Nat) where
  mesid    : MessageId B
  threads  : Fin N → Pos
  returned : List (MessageId B)

/-- The atomic steps of a thread. -/
inductive Act (N : Nat) where
  /-- A call begins: `++_mesid`, compared with `undefined_messageid()`. -/
  | inc (t : Fin N)
  /-- The second `++_mesid`. -/
  | skip (t : Fin N)
  /-- The load the call returns. -/
  | load (t : Fin N)
  deriving DecidableEq

/-- Nobody is in `new_mid`. -/
def init (mesid : MessageId B) : State B N := ⟨mesid, fun _ => .idle, []⟩

/-- One step; `none` when the thread stands elsewhere. -/
def step (s : State B N) : Act N → Option (State B N)
  | .inc t  =>
      if s.threads t = .idle then
        let mesid := s.mesid + 1
        some { s with
          mesid, threads := Function.update s.threads t (if mesid = undefinedMessageid then .skipping else .loading) }
      else none
  | .skip t =>
      if s.threads t = .skipping then
        some { s with mesid := s.mesid + 1, threads := Function.update s.threads t .loading }
      else none
  | .load t =>
      if s.threads t = .loading then
        some { s with threads := Function.update s.threads t .idle, returned := s.returned ++ [s.mesid] }
      else none

/-- A call begins. -/
def Act.isCall : Act N → Bool
  | .inc _ => true
  | _      => false

/-- The step changes the counter. -/
def Act.increments : Act N → Bool
  | .inc _ | .skip _ => true
  | .load _ => false

/-- The counter is left alone between a call's last increment and its load. -/
def Undisturbed (s : State B N) (a : Act N) : Prop := a.increments = true → ∀ u, s.threads u ≠ .loading

instance (s : State B N) (a : Act N) : Decidable (Undisturbed s a) := inferInstanceAs (Decidable (_ → ∀ _, _ ≠ _))

/-! ## The values of the counter -/

section Counter

variable {w : Nat} (start : BitVec w)

/-- The value of the counter after `i` increments. -/
def after (i : Nat) : BitVec w := start + BitVec.ofNat w i

/-- The number of increments after which it is zero. -/
def wrapAt : Nat := 2 ^ w - start.toNat

variable {start}

theorem after_succ (i : Nat) : after start i + 1 = after start (i + 1) := by
  rw [after, after, BitVec.add_assoc]
  congr 1
  exact (BitVec.ofNat_add i 1).symm

theorem toNat_after (i : Nat) : (after start i).toNat = (start.toNat + i) % 2 ^ w := by
  rw [after, BitVec.toNat_add, BitVec.toNat_ofNat, Nat.add_mod_mod]

/-- In one round of the counter no value comes twice. -/
theorem after_inj {i j : Nat} (hi : 1 ≤ i) (hij : i ≤ j) (hj : j ≤ 2 ^ w) (h : after start i = after start j) :
    i = j := by
  have hnat := congrArg BitVec.toNat h
  rw [toNat_after, toNat_after] at hnat
  have hdvd : 2 ^ w ∣ (start.toNat + j) - (start.toNat + i) :=
    Nat.dvd_of_mod_eq_zero (Nat.sub_mod_eq_zero_of_mod_eq hnat.symm)
  have hlt : (start.toNat + j) - (start.toNat + i) < 2 ^ w := by omega
  have hzero := Nat.eq_zero_of_dvd_of_lt hdvd hlt
  omega

/-- In one round of the counter it is zero once. -/
theorem after_eq_zero_iff {i : Nat} (hi : 1 ≤ i) (hle : i ≤ 2 ^ w) : after start i = 0 ↔ i = wrapAt start := by
  have hlt := start.isLt
  have hwrap : after start (wrapAt start) = 0 := by
    refine BitVec.eq_of_toNat_eq ?_
    rw [toNat_after, wrapAt, Nat.add_sub_cancel' (Nat.le_of_lt hlt), Nat.mod_self]
    rfl
  constructor
  · intro h
    rcases Nat.le_total i (wrapAt start) with hcmp | hcmp
    · exact after_inj hi hcmp (Nat.sub_le ..) (h.trans hwrap.symm)
    · refine (after_inj ?_ hcmp hle (hwrap.trans h.symm)).symm
      rw [wrapAt]; omega
  · rintro rfl
    exact hwrap

end Counter

/-! ## The invariant -/

/-- How far the calls are past the undefined identifier: not there yet; one call has met it and is to skip it;
    it is skipped. `n` calls have made `m` increments. -/
def Round (start : MessageId B) (n m : Nat) (threads : Fin N → Pos) : Prop :=
  (m < wrapAt start ∧ m = n ∧ ∀ u, threads u ≠ .skipping)
    ∨ (wrapAt start ≤ m ∧ m = n ∧ ∃ t, ∀ u, threads u = .skipping → u = t)
    ∨ (wrapAt start < m ∧ m = n + 1 ∧ ∀ u, threads u ≠ .skipping)

/-- **What undisturbed calls keep.** `n` calls have made `m` increments, and returned the values after the
    increments `idx`, each one later than the one before. -/
structure Numbering (start : MessageId B) (n m : Nat) (idx : List Nat) (s : State B N) : Prop where
  mesid    : s.mesid = after start m
  returned : s.returned = idx.map (after start)
  sorted   : idx.Pairwise (· < ·)
  bound    : ∀ i ∈ idx, 1 ≤ i ∧ i ≤ m ∧ i ≠ wrapAt start
  /-- Whoever is about to load has made the last increment, and nobody has returned its value. -/
  fresh    : ∀ t, s.threads t = .loading → 1 ≤ m ∧ m ≠ wrapAt start ∧ ∀ i ∈ idx, i < m
  single   : ∀ t u, s.threads t = .loading → s.threads u = .loading → t = u
  round    : Round start n m s.threads

variable {start : MessageId B} {n m : Nat} {idx : List Nat} {s s' : State B N} {t : Fin N}

theorem Numbering.init (start : MessageId B) : Numbering start 0 0 [] (NewMid.init start : State B N) where
  mesid        := by rw [NewMid.init, after]; exact (BitVec.add_zero start).symm
  returned     := rfl
  sorted       := .nil
  bound _ h    := absurd h List.not_mem_nil
  fresh _ h    := by cases h
  single _ _ h := by cases h
  round        := .inl ⟨by rw [wrapAt]; have := start.isLt; omega, rfl, fun _ h => by cases h⟩

/-- Who stands at a position after thread `t` has moved to another one. -/
theorem eq_of_update {u : Fin N} {p q : Pos} (h : Function.update s.threads t p u = q) :
    (u = t ∧ p = q) ∨ (u ≠ t ∧ s.threads u = q) := by
  rw [Function.update_apply] at h
  split at h
  · next hu => exact .inl ⟨hu, h⟩
  · next hu => exact .inr ⟨hu, h⟩

/-- At most one increment is a second one. -/
theorem Round.le {threads : Fin N → Pos} (h : Round start n m threads) : m ≤ n + 1 := by
  rcases h with ⟨-, rfl, -⟩ | ⟨-, rfl, -⟩ | ⟨-, rfl, -⟩ <;> omega

/-- A first increment that gives a defined identifier. -/
theorem Round.inc (h : Round start n m s.threads) (hne : m + 1 ≠ wrapAt start) (t : Fin N) :
    Round start (n + 1) (m + 1) (Function.update s.threads t .loading) := by
  have hskip : ∀ u, Function.update s.threads t .loading u = .skipping → s.threads u = .skipping := by
    intro u hu
    rcases eq_of_update hu with ⟨-, hp⟩ | ⟨-, hu'⟩
    · cases hp
    · exact hu'
  rcases h with ⟨hlt, rfl, hnone⟩ | ⟨hle, rfl, v, hv⟩ | ⟨hlt, rfl, hnone⟩
  · exact .inl ⟨by omega, rfl, fun u hu => hnone u (hskip u hu)⟩
  · exact .inr (.inl ⟨by omega, rfl, v, fun u hu => hv u (hskip u hu)⟩)
  · exact .inr (.inr ⟨by omega, rfl, fun u hu => hnone u (hskip u hu)⟩)

/-- The first increment that gives the undefined identifier. -/
theorem Round.wrap (h : Round start n m s.threads) (heq : m + 1 = wrapAt start) (t : Fin N) :
    Round start (n + 1) (m + 1) (Function.update s.threads t .skipping) := by
  rcases h with ⟨-, rfl, hnone⟩ | ⟨hle, -⟩ | ⟨hlt, -⟩
  · refine .inr (.inl ⟨by omega, rfl, t, fun u hu => ?_⟩)
    rcases eq_of_update hu with ⟨hut, -⟩ | ⟨-, hu'⟩
    · exact hut
    · exact absurd hu' (hnone u)
  · omega
  · omega

/-- The second increment of the one call that needs it. -/
theorem Round.skip (h : Round start n m s.threads) (ht : s.threads t = .skipping) :
    wrapAt start ≤ m ∧ m = n ∧ Round start n (m + 1) (Function.update s.threads t .loading) := by
  rcases h with ⟨-, -, hnone⟩ | ⟨hle, rfl, v, hv⟩ | ⟨-, -, hnone⟩
  · exact absurd ht (hnone t)
  · refine ⟨hle, rfl, .inr (.inr ⟨by omega, rfl, fun u hu => ?_⟩)⟩
    rcases eq_of_update hu with ⟨-, hp⟩ | ⟨hne, hu'⟩
    · cases hp
    · exact hne ((hv u hu').trans (hv t ht).symm)
  · exact absurd ht (hnone t)

/-- A load skips nothing. -/
theorem Round.load (h : Round start n m s.threads) (t : Fin N) :
    Round start n m (Function.update s.threads t .idle) := by
  have hskip : ∀ u, Function.update s.threads t .idle u = .skipping → s.threads u = .skipping := by
    intro u hu
    rcases eq_of_update hu with ⟨-, hp⟩ | ⟨-, hu'⟩
    · cases hp
    · exact hu'
  rcases h with ⟨hlt, hm, hnone⟩ | ⟨hle, hm, v, hv⟩ | ⟨hlt, hm, hnone⟩
  · exact .inl ⟨hlt, hm, fun u hu => hnone u (hskip u hu)⟩
  · exact .inr (.inl ⟨hle, hm, v, fun u hu => hv u (hskip u hu)⟩)
  · exact .inr (.inr ⟨hlt, hm, fun u hu => hnone u (hskip u hu)⟩)

/-- **A thread increments while nobody is about to load**, and is about to load itself or has to skip the
    undefined identifier. -/
theorem Numbering.increment (h : Numbering start n m idx s) {n' : Nat} {pos : Pos}
    (hnobody : ∀ u, s.threads u ≠ .loading)
    (hpos : pos = .loading → m + 1 ≠ wrapAt start)
    (hround : Round start n' (m + 1) (Function.update s.threads t pos))
    (hthreads : s'.threads = Function.update s.threads t pos) (hmesid : s'.mesid = s.mesid + 1)
    (hreturned : s'.returned = s.returned) : Numbering start n' (m + 1) idx s' where
  mesid    := by rw [hmesid, h.mesid, after_succ]
  returned := by rw [hreturned, h.returned]
  sorted   := h.sorted
  bound i hi := by
    obtain ⟨h₁, h₂, h₃⟩ := h.bound i hi
    exact ⟨h₁, by omega, h₃⟩
  fresh u hu := by
    rw [hthreads] at hu
    rcases eq_of_update hu with ⟨-, hload⟩ | ⟨-, hload⟩
    · refine ⟨by omega, hpos hload, fun i hi => ?_⟩
      have := (h.bound i hi).2.1
      omega
    · exact absurd hload (hnobody u)
  single u v hu hv := by
    rw [hthreads] at hu hv
    rcases eq_of_update hu with ⟨rfl, -⟩ | ⟨-, hload⟩
    · rcases eq_of_update hv with ⟨rfl, -⟩ | ⟨-, hload⟩
      · rfl
      · exact absurd hload (hnobody v)
    · exact absurd hload (hnobody u)
  round := hthreads ▸ hround

/-- **Every undisturbed step keeps the numbering**, as long as there are fewer calls than values. -/
theorem Numbering.step (h : Numbering start n m idx s) {a : Act N} (hok : Undisturbed s a)
    (hcalls : n + a.isCall.toNat < 2 ^ (8 * B.sizeofULong)) (hs : NewMid.step s a = some s') :
    ∃ m' idx', Numbering start (n + a.isCall.toNat) m' idx' s' := by
  cases a with
  | inc t =>
      rw [NewMid.step] at hs
      split at hs
      · next ht =>
          cases hs
          have hnobody := hok rfl
          have hle : m + 1 ≤ 2 ^ (8 * B.sizeofULong) := by
            have := h.round.le
            have : n + 1 < 2 ^ (8 * B.sizeofULong) := hcalls
            omega
          have hzero : s.mesid + 1 = undefinedMessageid ↔ m + 1 = wrapAt start := by
            rw [h.mesid, after_succ]
            exact after_eq_zero_iff (by omega) hle
          refine ⟨m + 1, idx, ?_⟩
          by_cases hwrap : m + 1 = wrapAt start
          · rw [if_pos (hzero.mpr hwrap)]
            exact h.increment hnobody (fun hp => by cases hp) (h.round.wrap hwrap t) rfl rfl rfl
          · rw [if_neg (fun hz => hwrap (hzero.mp hz))]
            exact h.increment hnobody (fun _ => hwrap) (h.round.inc hwrap t) rfl rfl rfl
      · cases hs
  | skip t =>
      rw [NewMid.step] at hs
      split at hs
      · next ht =>
          cases hs
          obtain ⟨hle, -, hround⟩ := h.round.skip ht
          exact ⟨m + 1, idx, h.increment (hok rfl) (fun _ => by omega) hround rfl rfl rfl⟩
      · cases hs
  | load t =>
      rw [NewMid.step] at hs
      split at hs
      · next ht =>
          cases hs
          obtain ⟨hpos, hne, hlt⟩ := h.fresh t ht
          -- the value of the last increment is returned, and nobody else is about to load
          have hnobody : ∀ u, Function.update s.threads t .idle u ≠ .loading := by
            intro u hu
            rcases eq_of_update hu with ⟨-, hp⟩ | ⟨hut, hu'⟩
            · cases hp
            · exact hut (h.single u t hu' ht)
          refine ⟨m, idx ++ [m], h.mesid, ?_, ?_, ?_, fun u hu => absurd hu (hnobody u),
            fun u _ hu => absurd hu (hnobody u), h.round.load t⟩
          · rw [List.map_append, ← h.returned, h.mesid]; rfl
          · rw [List.pairwise_append]
            exact ⟨h.sorted, List.pairwise_singleton .., fun i hi j hj => by
              rw [List.mem_singleton.mp hj]; exact hlt i hi⟩
          · intro i hi
            rcases List.mem_append.mp hi with hi | hi
            · exact h.bound i hi
            · rw [List.mem_singleton.mp hi]
              exact ⟨hpos, Nat.le_refl m, hne⟩
      · cases hs

/-! ## Runs -/

/-- The number of calls a list of steps begins. -/
def calls (as : List (Act N)) : Nat := as.countP Act.isCall

/-- What the numbering says about the identifiers returned. -/
theorem Numbering.unique (h : Numbering start n m idx s) (hn : n < 2 ^ (8 * B.sizeofULong)) :
    s.returned.Nodup ∧ ∀ id ∈ s.returned, id ≠ undefinedMessageid := by
  have hle := h.round.le
  rw [h.returned]
  constructor
  · refine List.Nodup.map_on (fun i hi j hj hij => ?_) (h.sorted.imp Nat.ne_of_lt)
    have hbi := h.bound i hi
    have hbj := h.bound j hj
    rcases Nat.le_total i j with hcmp | hcmp
    · exact after_inj hbi.1 hcmp (by omega) hij
    · exact (after_inj hbj.1 hcmp (by omega) hij.symm).symm
  · intro id hid
    obtain ⟨i, hi, rfl⟩ := List.mem_map.mp hid
    have hbi := h.bound i hi
    exact fun hz => hbi.2.2 ((after_eq_zero_iff hbi.1 (by omega)).mp hz)

theorem numbering_run {as : List (Act N)} (hok : Machine.Guarded NewMid.step Undisturbed (NewMid.init start) as)
    (hrun : Machine.run NewMid.step (NewMid.init start) as = some s) (hcalls : calls as < 2 ^ (8 * B.sizeofULong)) :
    ∃ m idx, Numbering start (calls as) m idx s := by
  have h := Machine.run_past_invariant (fun past s =>
      calls past < 2 ^ (8 * B.sizeofULong) → ∃ m idx, Numbering start (calls past) m idx s)
    (fun past s a s' ih hok hs hlt => by
      have hcount : calls (past ++ [a]) = calls past + a.isCall.toNat := by
        rw [calls, List.countP_append, List.countP_singleton, ← calls]
        cases a.isCall <;> rfl
      rw [hcount] at hlt ⊢
      obtain ⟨m, idx, hnum⟩ := ih (by omega)
      exact hnum.step hok hlt hs)
    as [] _ _ (fun _ => ⟨0, [], .init start⟩) hok hrun
  exact h hcalls

/-- What the calls are to return. -/
def Unique (s : State B N) : Prop := s.returned.Nodup ∧ ∀ id ∈ s.returned, id ≠ undefinedMessageid

theorem step_load (ht : s.threads t = .loading) :
    NewMid.step s (.load t)
      = some { s with threads := Function.update s.threads t .idle, returned := s.returned ++ [s.mesid] } := by
  rw [NewMid.step, if_pos ht]

/-- Two threads that are about to load return the same value. -/
theorem loads_repeat {u : Fin N} (ht : s.threads t = .loading) (hu : s.threads u = .loading) (hne : t ≠ u) :
    ∃ s', Machine.run NewMid.step s [.load u, .load t] = some s' ∧ ¬ Unique s' := by
  refine ⟨_, Machine.run_cons_eq_some.mpr ⟨_, step_load hu, Machine.run_cons_eq_some.mpr ⟨_, step_load ?_, rfl⟩⟩, ?_⟩
  · exact (Function.update_of_ne hne ..).trans ht
  · intro h
    have hnodup : (s.returned ++ [s.mesid] ++ [s.mesid]).Nodup := h.1
    rw [List.append_assoc, List.nodup_append] at hnodup
    exact absurd hnodup.2.1 (by simp)

/-- A thread that loads the undefined identifier returns it. -/
theorem load_undefined {u : Fin N} (hu : s.threads u = .loading) (hz : s.mesid = undefinedMessageid) :
    ∃ s', Machine.run NewMid.step s [.load u] = some s' ∧ ¬ Unique s' := by
  refine ⟨_, Machine.run_cons_eq_some.mpr ⟨_, step_load hu, rfl⟩, fun h => ?_⟩
  exact h.2 s.mesid (List.mem_append_right _ List.mem_cons_self) hz

/-- **A disturbed call goes wrong at once**: loads alone lead on to a repeated or undefined identifier. -/
theorem disturbed_repeats {a : Act N} (hok : ¬ Undisturbed s a) (hs : NewMid.step s a = some s') :
    ∃ loads s'', (∀ b ∈ loads, b.increments = false) ∧ Machine.run NewMid.step s' loads = some s''
      ∧ ¬ Unique s'' := by
  obtain ⟨hinc, hloading⟩ := Classical.not_imp.mp hok
  obtain ⟨u, hu⟩ := Classical.not_forall_not.mp hloading
  have hloads : ∀ t : Fin N, ∀ b ∈ [Act.load u, Act.load t], b.increments = false := by
    intro t b hb
    rcases List.mem_cons.mp hb with rfl | hb
    · rfl
    · rw [List.mem_singleton.mp hb]; rfl
  cases a with
  | inc t =>
      rw [NewMid.step] at hs
      split at hs
      · next ht =>
          have hne : t ≠ u := fun he => by rw [he, hu] at ht; cases ht
          -- the increment may bring the counter to the undefined identifier, which the pending load returns
          by_cases hz : s.mesid + 1 = undefinedMessageid
          · cases hs
            obtain ⟨s'', hrun, hbad⟩ := load_undefined (u := u)
              (s := { s with
                mesid := s.mesid + 1,
                threads :=
                  Function.update s.threads t (if s.mesid + 1 = undefinedMessageid then .skipping else .loading) })
              ((Function.update_of_ne hne.symm ..).trans hu) hz
            exact ⟨[.load u], s'', fun b hb => hloads u b (List.mem_cons_of_mem _ hb), hrun, hbad⟩
          -- otherwise both calls load the same value
          · simp only [if_neg hz] at hs
            cases hs
            obtain ⟨s'', hrun, hbad⟩ := loads_repeat (t := t) (u := u)
              (s := { s with mesid := s.mesid + 1, threads := Function.update s.threads t .loading })
              (Function.update_self ..) ((Function.update_of_ne hne.symm ..).trans hu) hne
            exact ⟨_, s'', hloads t, hrun, hbad⟩
      · cases hs
  | skip t =>
      rw [NewMid.step] at hs
      split at hs
      · next ht =>
          have hne : t ≠ u := fun he => by rw [he, hu] at ht; cases ht
          cases hs
          obtain ⟨s'', hrun, hbad⟩ := loads_repeat (t := t) (u := u)
            (s := { s with mesid := s.mesid + 1, threads := Function.update s.threads t .loading })
            (Function.update_self ..) ((Function.update_of_ne hne.symm ..).trans hu) hne
          exact ⟨_, s'', hloads t, hrun, hbad⟩
      · cases hs
  | load t => cases hinc

/-- **Concurrent calls of `new_mid` return different, defined identifiers** as long as nobody increments the
    counter between a call's last increment and its load: for every starting value, any number of threads and
    every interleaving that begins fewer calls than there are values. Any other step can be followed by loads
    that return the same or an undefined identifier. -/
theorem newMid_unique (start : MessageId B) (as : List (Act N)) (s : State B N)
    (hrun : Machine.run NewMid.step (NewMid.init start) as = some s)
    (hcalls : calls as < 2 ^ (8 * B.sizeofULong)) :
    (Machine.Guarded NewMid.step Undisturbed (NewMid.init start) as →
        s.returned.Nodup ∧ ∀ id ∈ s.returned, id ≠ undefinedMessageid)
      ∧ ∀ a s', ¬ Undisturbed s a → NewMid.step s a = some s' →
          ∃ loads s'', (∀ b ∈ loads, b.increments = false) ∧ Machine.run NewMid.step s' loads = some s''
            ∧ ¬ (s''.returned.Nodup ∧ ∀ id ∈ s''.returned, id ≠ undefinedMessageid) := by
  refine ⟨fun hok => ?_, fun a s' hno hs => disturbed_repeats hno hs⟩
  obtain ⟨m, idx, hnum⟩ := numbering_run hok hrun hcalls
  exact hnum.unique hcalls

/-- Three calls: the first meets the undefined identifier, the second is made before the first one goes on. -/
def wrapping (t u : Fin N) : List (Act N) := [.inc t, .inc u, .load u, .skip t, .load t, .inc u, .load u]

/-- The guarantee on that run. -/
theorem newMid_unique_wrapping : ∃ s : State .lp64 2,
    Machine.run NewMid.step (NewMid.init (-1)) (wrapping 0 1) = some s
      ∧ s.returned = [1, 2, 3]
      ∧ s.returned.Nodup ∧ ∀ id ∈ s.returned, id ≠ undefinedMessageid :=
  ⟨_, rfl, by decide +kernel, (newMid_unique (B := .lp64) (-1) (wrapping 0 1) _ rfl (by decide +kernel)).1
    (by decide +kernel)⟩

/-- **Two calls of `new_mid` can return the same identifier**: both increment before either loads. -/
theorem newMid_repeats : ¬ ∀ (start : MessageId .lp64) (as : List (Act 2)) (s : State .lp64 2),
    Machine.run NewMid.step (NewMid.init start) as = some s → calls as < 2 ^ 64 →
    s.returned.Nodup ∧ ∀ id ∈ s.returned, id ≠ undefinedMessageid := by
  intro hclaim
  have hnodup := (hclaim 0 [.inc 0, .inc 1, .load 0, .load 1] _ rfl (by decide +kernel)).1
  exact absurd hnodup (by decide +kernel)

/-! ## One call at a time -/

/-- **A thread alone** takes the steps `Comm.newMid` takes at once. -/
theorem newMid_alone (c : Comm B) (t : Fin N) (threads : Fin N → Pos) (returned : List (MessageId B))
    (ht : threads t = .idle) :
    ∃ as s, Machine.run NewMid.step ⟨c.mesid, threads, returned⟩ as = some s
      ∧ s.mesid = c.newMid.2.mesid ∧ s.returned = returned ++ [c.newMid.1] := by
  have hinc : NewMid.step ⟨c.mesid, threads, returned⟩ (.inc t) = some ⟨c.mesid + 1, Function.update threads t
      (if c.mesid + 1 = undefinedMessageid then .skipping else .loading), returned⟩ := by
    rw [NewMid.step, if_pos ht]
  by_cases hz : c.mesid + 1 = undefinedMessageid
  · have hmid : c.newMid.1 = c.mesid + 1 + 1 := if_pos hz
    rw [if_pos hz] at hinc
    refine ⟨[.inc t, .skip t, .load t], _, Machine.run_cons_eq_some.mpr ⟨_, hinc, Machine.run_cons_eq_some.mpr
      ⟨_, if_pos (Function.update_self ..), Machine.run_cons_eq_some.mpr
        ⟨_, step_load (Function.update_self ..), rfl⟩⟩⟩, hmid.symm, ?_⟩
    rw [hmid]
  · have hmid : c.newMid.1 = c.mesid + 1 := if_neg hz
    rw [if_neg hz] at hinc
    refine ⟨[.inc t, .load t], _, Machine.run_cons_eq_some.mpr ⟨_, hinc, Machine.run_cons_eq_some.mpr
      ⟨_, step_load (Function.update_self ..), rfl⟩⟩, hmid.symm, ?_⟩
    rw [hmid]

end NewMid

end Unicomm
