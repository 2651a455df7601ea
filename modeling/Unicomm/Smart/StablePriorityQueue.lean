import Unicomm.Comm.Outgoing
import Unicomm.Lib.PartitionPoint

/-!
# `Smart.StablePriorityQueue` — the queue under the communicator

Models `smart::stable_priority_queue` of the vendored library, `push_if_unique` and the search they rest on. A queue
is its container; `before` is the comparator, and `std::upper_bound`, `std::lower_bound` and `std::stable_sort` do
what the standard says. Every function takes for granted that the container is sorted, and every function keeps it so
(`in_use`). `prepearedMQueue_used` closes the gap to the communicator, whose model inserts by walking along the queue:
in every reachable state the vendored binary search puts a message in the same place.
-/

namespace Unicomm

namespace StablePriorityQueue

open PartitionPoint

variable {α : Type} (before : α → α → Bool)

/-- The constructors from a container or a range: `std::stable_sort`. -/
def ofRange (xs : List α) : List α := xs.mergeSort (fun x y => !before y x)

/-- `push`: insert at the `std::upper_bound` of the element. -/
def push (x : α) (cont : List α) : List α := insertAt (partitionPoint (before x) cont) x cont

/-- `front` and `pop` together; both are undefined on an empty queue. -/
def pop : List α → Option (α × List α)
  | []        => none
  | x :: cont => some (x, cont)

/-- `contains`: `std::binary_search`, the `std::lower_bound` of the element and a look at what is there. -/
def contains (x : α) (cont : List α) : Bool :=
  match cont[partitionPoint (fun y => !before y x) cont]? with
  | some y => !before x y
  | none   => false

/-- `push_if_unique`: whether the element was pushed, and the queue. -/
def pushIfUnique (x : α) (cont : List α) : Bool × List α :=
  if contains before x cont then (false, cont) else (true, push before x cont)

/-! ## Each operation -/

variable {before} {cont : List α}

theorem push_eq (h : StrictWeak before) (hs : Sorted before cont) (x : α) :
    push before x cont = cont.takeWhile (fun y => !before x y) ++ x :: cont.dropWhile (fun y => !before x y) :=
  insertAt_partitionPoint (hs.partitioned h x) x

/-- A push adds the element. -/
theorem push_perm (h : StrictWeak before) (hs : Sorted before cont) (x : α) :
    (push before x cont).Perm (x :: cont) := by
  rw [push_eq h hs]
  refine List.perm_middle.trans ?_
  rw [List.takeWhile_append_dropWhile]

/-- **The order survives a push.** -/
theorem sorted_push (h : StrictWeak before) (hs : Sorted before cont) (x : α) : Sorted before (push before x cont) := by
  rw [push_eq h hs]
  have hfront : Sorted before (cont.takeWhile (fun y => !before x y)) := hs.sublist (List.takeWhile_sublist _)
  have hback : Sorted before (cont.dropWhile (fun y => !before x y)) := hs.sublist (List.dropWhile_sublist _)
  have hparts : Sorted before (cont.takeWhile (fun y => !before x y) ++ cont.dropWhile (fun y => !before x y)) := by
    rw [List.takeWhile_append_dropWhile]
    exact hs
  refine List.pairwise_append.mpr ⟨hfront, List.pairwise_cons.mpr ⟨fun y hy => ?_, hback⟩, fun y hy z hz => ?_⟩
  · exact h.asymm (of_mem_dropWhile (hs.partitioned h x) hy)
  · rcases List.mem_cons.mp hz with rfl | hz
    · exact of_mem_takeWhile hy
    · exact (List.pairwise_append.mp hparts).2.2 y hy z hz

/-- **Within one kind a push is an append.** -/
theorem filter_push (h : StrictWeak before) (hs : Sorted before cont) (x z : α) :
    (push before x cont).filter (Alike before z)
      = cont.filter (Alike before z) ++ [x].filter (Alike before z) := by
  have hparts : cont.filter (Alike before z)
      = (cont.takeWhile (fun y => !before x y)).filter (Alike before z)
        ++ (cont.dropWhile (fun y => !before x y)).filter (Alike before z) := by
    rw [← List.filter_append, List.takeWhile_append_dropWhile]
  rw [push_eq h hs, hparts, List.filter_append, List.append_assoc]
  congr 1
  by_cases hx : Alike before z x = true
  · -- what follows `x` comes after it, so it is not like `x`
    have hnone : (cont.dropWhile (fun y => !before x y)).filter (Alike before z) = [] := by
      rw [List.filter_eq_nil_iff]
      intro y hy hzy
      have hxy := of_mem_dropWhile (hs.partitioned h x) hy
      rw [alike_comm] at hx
      rw [(alike_iff.mp (h.alike_trans hx hzy)).1] at hxy
      cases hxy
    rw [List.filter_cons_of_pos hx, hnone]
    simp [hx]
  · rw [List.filter_cons_of_neg hx]
    simp [hx]

/-- **The binary search finds an element exactly when one like it is there.** -/
theorem contains_iff (h : StrictWeak before) (hs : Sorted before cont) (x : α) :
    contains before x cont = true ↔ ∃ y ∈ cont, Alike before x y = true := by
  have hpart := hs.partitioned_not h x
  have hpoint := partitionPoint_eq hpart
  have hlt := fun {i : Nat} {y : α} (hy : cont[i]? = some y) => lt_takeWhile_iff hpart hy
  unfold contains
  rw [hpoint]
  constructor
  · intro hfound
    cases hy : cont[(cont.takeWhile (fun y => !!before y x)).length]? with
    | none =>
        rw [hy] at hfound
        cases hfound
    | some y =>
        rw [hy] at hfound
        have hnot : before y x = false := by
          by_contra hyx
          exact absurd ((hlt hy).mpr (by simpa using hyx)) (Nat.lt_irrefl _)
        exact ⟨y, List.mem_of_getElem? hy, alike_iff.mpr ⟨by simpa using hfound, hnot⟩⟩
  · rintro ⟨y, hy, halike⟩
    obtain ⟨hxy, hyx⟩ := alike_iff.mp halike
    obtain ⟨i, hi⟩ := List.getElem?_of_mem hy
    have hle : (cont.takeWhile (fun y => !!before y x)).length ≤ i := by
      by_contra hgt
      have hno := (hlt hi).mp (by omega)
      simp [hyx] at hno
    have hilen : i < cont.length := (List.getElem?_eq_some_iff.mp hi).1
    have hfound : (cont.takeWhile (fun y => !!before y x)).length < cont.length := by omega
    simp only [List.getElem?_eq_getElem hfound]
    -- what is found stands no later than `y`, so `x` does not come before it either
    rcases Nat.lt_or_eq_of_le hle with hlater | heq
    · have horder := List.pairwise_iff_getElem.mp hs _ _ hfound hilen hlater
      have hyi : cont[i] = y := (List.getElem?_eq_some_iff.mp hi).2
      rw [hyi] at horder
      rw [Bool.not_eq_true']
      exact h.trans_not hxy horder
    · have hyi : cont[(cont.takeWhile (fun y => !!before y x)).length] = y := by
        have hi' := hi
        rw [← heq, List.getElem?_eq_getElem hfound] at hi'
        exact Option.some.inj hi'
      rw [hyi, Bool.not_eq_true']
      exact hxy

/-! ## Two ways to build a queue -/

theorem perm_ofRange (xs : List α) : (ofRange before xs).Perm xs := List.mergeSort_perm xs _

/-- Sorting keeps the elements of a kind in their order. -/
theorem filter_ofRange (h : StrictWeak before) (xs : List α) (z : α) :
    (ofRange before xs).filter (Alike before z) = xs.filter (Alike before z) := by
  -- elements of one kind are in order, so sorting leaves them where they are to each other
  have hkind : (xs.filter (Alike before z)).Pairwise (fun x y => (!before y x) = true) := by
    refine List.pairwise_of_forall_mem_list (fun x hx y hy => ?_)
    have hzx := (List.mem_filter.mp hx).2
    have hzy := (List.mem_filter.mp hy).2
    rw [alike_comm] at hzx
    have hxy := h.alike_trans hzx hzy
    rw [(alike_iff.mp hxy).2]
    rfl
  have hsub : (xs.filter (Alike before z)).Sublist (ofRange before xs) :=
    List.sublist_mergeSort h.not_trans h.not_total hkind List.filter_sublist
  have hfilter := hsub.filter (Alike before z)
  rw [List.filter_filter] at hfilter
  simp only [Bool.and_self] at hfilter
  refine (hfilter.eq_of_length ?_).symm
  exact ((List.mergeSort_perm xs _).filter (Alike before z)).length_eq.symm

theorem sorted_ofRange (h : StrictWeak before) (xs : List α) : Sorted before (ofRange before xs) :=
  (List.pairwise_mergeSort h.not_trans h.not_total xs).imp (fun hab => by rwa [Bool.not_eq_true'] at hab)

/-- **Building a queue from a range is pushing its elements one after the other.** -/
theorem ofRange_eq_foldl (h : StrictWeak before) (xs : List α) :
    ofRange before xs = xs.foldl (fun cont x => push before x cont) [] := by
  have hpushed : ∀ (xs cont : List α), Sorted before cont →
      Sorted before (xs.foldl (fun cont x => push before x cont) cont)
        ∧ ∀ z, (xs.foldl (fun cont x => push before x cont) cont).filter (Alike before z)
            = cont.filter (Alike before z) ++ xs.filter (Alike before z) := by
    intro xs
    induction xs with
    | nil => exact fun cont hs => ⟨hs, fun z => (List.append_nil _).symm⟩
    | cons x xs ih =>
        intro cont hs
        obtain ⟨hsorted, hfilter⟩ := ih (push before x cont) (sorted_push h hs x)
        refine ⟨hsorted, fun z => ?_⟩
        rw [List.foldl_cons, hfilter z, filter_push h hs, List.append_assoc, ← List.filter_append]
        rfl
  obtain ⟨hsorted, hfilter⟩ := hpushed xs [] .nil
  refine Sorted.ext h (sorted_ofRange h xs) hsorted (fun z => ?_)
  rw [filter_ofRange h, hfilter z]
  rfl

/-! ## A queue in use -/

/-- A comparison of priorities, the higher one first. -/
def higher (prio : α → Nat) (x y : α) : Bool := prio y < prio x

theorem strictWeak_higher (prio : α → Nat) : StrictWeak (higher prio) where
  asymm {x y} h := by
    simp only [higher, decide_eq_true_eq, decide_eq_false_iff_not] at h ⊢
    omega
  cotrans {x z} y h := by
    simp only [higher, decide_eq_true_eq] at h ⊢
    omega

/-- The operations that change a queue. -/
inductive Op (α : Type) where
  | push (x : α)
  | pop
  | pushIfUnique (x : α)
  deriving DecidableEq, Repr

/-- One operation; `none` when it is undefined. -/
def step (before : α → α → Bool) (cont : List α) : Op α → Option (List α)
  | .push x         => some (push before x cont)
  | .pop            => (pop cont).map Prod.snd
  | .pushIfUnique x => some (pushIfUnique before x cont).2

/-- An element that enters the queue, or leaves it at the front. -/
inductive Traffic (α : Type) where
  | entered (x : α)
  | left (x : α)
  deriving DecidableEq, Repr

def Traffic.entered? : Traffic α → Option α
  | .entered x => some x
  | .left _    => none

def Traffic.left? : Traffic α → Option α
  | .left x    => some x
  | .entered _ => none

/-- What enters and leaves in one operation. -/
def traffic (before : α → α → Bool) (cont : List α) : Op α → List (Traffic α)
  | .push x         => [.entered x]
  | .pop            => cont.head?.toList.map .left
  | .pushIfUnique x => if contains before x cont then [] else [.entered x]

/-- What entered and left a queue built from `xs`. -/
def trafficOf (before : α → α → Bool) (xs : List α) (ops : List (Op α)) : List (Traffic α) :=
  Machine.outputs (step before) (traffic before) (ofRange before xs) ops

/-- What was put in is what has left and what is in the queue, once each, and for each kind in order. -/
structure Conserved (before : α → α → Bool) (entered left cont : List α) : Prop where
  sorted : Sorted before cont
  perm   : (left ++ cont).Perm entered
  order  : ∀ x, left.filter (Alike before x) ++ cont.filter (Alike before x) = entered.filter (Alike before x)

theorem Conserved.push (h : StrictWeak before) {entered left : List α} (hc : Conserved before entered left cont)
    (x : α) : Conserved before (entered ++ [x]) left (StablePriorityQueue.push before x cont) where
  sorted := sorted_push h hc.sorted x
  perm   := by
    have hadd : (left ++ x :: cont).Perm (entered ++ [x]) :=
      List.perm_middle.trans ((hc.perm.cons x).trans (List.perm_append_singleton x entered).symm)
    exact ((push_perm h hc.sorted x).append_left left).trans hadd
  order z := by
    rw [filter_push h hc.sorted, ← List.append_assoc, hc.order z, List.filter_append]

theorem Conserved.pop {entered left : List α} {x : α} (hc : Conserved before entered left (x :: cont)) :
    Conserved before entered (left ++ [x]) cont where
  sorted := (List.pairwise_cons.mp hc.sorted).2
  perm   := by rw [List.append_assoc, List.singleton_append]; exact hc.perm
  order z := by rw [← hc.order z, List.filter_append, List.append_assoc, ← List.filter_append, List.singleton_append]

/-- One operation keeps the account. -/
theorem Conserved.step (h : StrictWeak before) {entered left cont' : List α} {op : Op α}
    (hc : Conserved before entered left cont) (hs : StablePriorityQueue.step before cont op = some cont') :
    Conserved before (entered ++ (traffic before cont op).filterMap Traffic.entered?)
      (left ++ (traffic before cont op).filterMap Traffic.left?) cont' := by
  cases op with
  | push x =>
      cases hs
      have hnone : (traffic before cont (.push x)).filterMap Traffic.left? = [] := rfl
      rw [hnone, List.append_nil]
      exact hc.push h x
  | pop =>
      cases cont with
      | nil => cases hs
      | cons x cont =>
          cases hs
          have hnone : (traffic before (x :: cont) .pop).filterMap Traffic.entered? = [] := rfl
          rw [hnone, List.append_nil]
          exact hc.pop
  | pushIfUnique x =>
      cases hs
      cases hin : contains before x cont with
      | true =>
          have hnone : traffic before cont (.pushIfUnique x) = [] := if_pos hin
          rw [hnone, List.filterMap_nil, List.filterMap_nil, List.append_nil, List.append_nil, pushIfUnique, if_pos hin]
          exact hc
      | false =>
          have hone : traffic before cont (.pushIfUnique x) = [.entered x] := if_neg (by rw [hin]; decide)
          have hleft : [Traffic.entered x].filterMap Traffic.left? = [] := rfl
          rw [hone, hleft, List.append_nil, pushIfUnique, if_neg (by rw [hin]; decide)]
          exact hc.push h x

/-- No two elements are alike. -/
def Unique (before : α → α → Bool) (cont : List α) : Prop := cont.Pairwise (fun x y => Alike before x y = false)

/-- `push_if_unique` keeps a queue without duplicates. -/
theorem Unique.pushIfUnique (h : StrictWeak before) (hs : Sorted before cont) (hu : Unique before cont) (x : α) :
    Unique before (pushIfUnique before x cont).2 := by
  unfold StablePriorityQueue.pushIfUnique
  split
  · exact hu
  · next hno =>
      have hfresh : ∀ y ∈ cont, Alike before x y = false := by
        intro y hy
        by_contra halike
        exact hno ((contains_iff h hs x).mpr ⟨y, hy, by simpa using halike⟩)
      have hpair : Unique before (x :: cont) := List.pairwise_cons.mpr ⟨hfresh, hu⟩
      exact ((push_perm h hs x).pairwise_iff (fun {y z} hyz => by rw [alike_comm]; exact hyz)).mpr hpair

/-- A run keeps the account. -/
theorem Conserved.run (h : StrictWeak before) (xs : List α) {ops : List (Op α)}
    (hrun : Machine.run (StablePriorityQueue.step before) (ofRange before xs) ops = some cont) :
    Conserved before (xs ++ (trafficOf before xs ops).filterMap Traffic.entered?)
      ((trafficOf before xs ops).filterMap Traffic.left?) cont := by
  refine Machine.run_outputs_of_step (traffic before)
    (fun _ moved cont => Conserved before (xs ++ moved.filterMap Traffic.entered?) (moved.filterMap Traffic.left?) cont)
    (fun _ moved cont op cont' hi hs => ?_)
    ⟨sorted_ofRange h xs, by simpa using perm_ofRange xs, fun x => by simpa using filter_ofRange h xs x⟩ hrun
  have hstep := Conserved.step h hi hs
  rwa [List.append_assoc, ← List.filterMap_append, ← List.filterMap_append] at hstep

/-- **The queue is stable, over every run.** Built from any range and used in any way, for any strict weak order: it
    stays sorted; what was put in has either left or is still there, once each; and elements of one kind leave in the
    order they were put in. When elements are only put in by `push_if_unique`, no two of them are ever alike. -/
theorem in_use (h : StrictWeak before) (xs : List α) (ops : List (Op α)) (cont : List α)
    (hrun : Machine.run (step before) (ofRange before xs) ops = some cont) :
    Conserved before (xs ++ (trafficOf before xs ops).filterMap Traffic.entered?)
        ((trafficOf before xs ops).filterMap Traffic.left?) cont
      ∧ (Unique before xs → (∀ x, .push x ∉ ops) → Unique before cont) := by
  constructor
  · exact Conserved.run h xs hrun
  · intro hxs hno
    have hstart : Unique before (ofRange before xs) :=
      ((perm_ofRange xs).pairwise_iff (fun {y z} hyz => by rw [alike_comm]; exact hyz)).mpr hxs
    have hok : Machine.Guarded (step before) (fun _ op => ∀ x, op ≠ .push x) (ofRange before xs) ops :=
      Machine.guarded_of_mem (fun _ op hop x heq => hno x (by rw [← heq]; exact hop))
    have hboth := Machine.run_guarded_invariant (fun cont => Sorted before cont ∧ Unique before cont)
      (fun cont op cont' hi hok hs => by
        cases op with
        | push x => exact absurd rfl (hok x)
        | pop =>
            cases cont with
            | nil => cases hs
            | cons x cont =>
                cases hs
                exact ⟨(List.pairwise_cons.mp hi.1).2, (List.pairwise_cons.mp hi.2).2⟩
        | pushIfUnique x =>
            cases hs
            refine ⟨?_, hi.2.pushIfUnique h hi.1 x⟩
            unfold StablePriorityQueue.pushIfUnique
            split
            · exact hi.1
            · exact sorted_push h hi.1 x)
      ops (ofRange before xs) cont ⟨sorted_ofRange h xs, hstart⟩ hok hrun
    exact hboth.2

/-- Three pushes of two priorities, one of them refused, and a pop. -/
theorem in_use_threePushed : ∃ cont,
    Machine.run (step (higher Prod.fst)) (ofRange (higher Prod.fst) [])
        [.push (1, 10), .push (2, 20), .pushIfUnique (1, 30), .push (1, 40), .pop] = some cont
      ∧ cont = [(1, 10), (1, 40)]
      ∧ Conserved (higher Prod.fst)
          ([] ++ (trafficOf (higher Prod.fst) []
            [.push (1, 10), .push (2, 20), .pushIfUnique (1, 30), .push (1, 40), .pop]).filterMap Traffic.entered?)
          ((trafficOf (higher Prod.fst) []
            [.push (1, 10), .push (2, 20), .pushIfUnique (1, 30), .push (1, 40), .pop]).filterMap Traffic.left?)
          cont := by
  have hrun : Machine.run (step (higher Prod.fst)) (ofRange (higher Prod.fst) [])
      [.push (1, 10), .push (2, 20), .pushIfUnique (1, 30), .push (1, 40), .pop] = some [(1, 10), (1, 40)] := by
    simp [Machine.run, step, ofRange, push, pop, pushIfUnique, contains, partitionPoint, search_succ, insertAt, higher]
  exact ⟨_, hrun, rfl, (in_use (strictWeak_higher Prod.fst) [] _ _ hrun).1⟩

/-! ## The queue of a communicator -/

/-- Walking along the queue and searching it by halves find the same place. -/
theorem push_higher {prio : α → Nat} (hs : Sorted (higher prio) cont) (x : α) :
    push (higher prio) x cont = PriorityQueue.push prio x cont := by
  rw [push_eq (strictWeak_higher prio) hs]
  clear hs
  induction cont with
  | nil => rfl
  | cons y cont ih =>
      rw [PriorityQueue.push]
      by_cases hle : prio x ≤ prio y
      · have hpass : (!higher prio x y) = true := by simpa [higher] using hle
        have htake := List.takeWhile_cons_of_pos (p := fun z => !higher prio x z) (l := cont) hpass
        have hdrop := List.dropWhile_cons_of_pos (p := fun z => !higher prio x z) (l := cont) hpass
        rw [if_pos hle, htake, hdrop, List.cons_append, ih]
      · have hstop : ¬ (!higher prio x y) = true := by simpa [higher] using hle
        have htake := List.takeWhile_cons_of_neg (p := fun z => !higher prio x z) (l := cont) hstop
        have hdrop := List.dropWhile_cons_of_neg (p := fun z => !higher prio x z) (l := cont) hstop
        rw [if_neg hle, htake, hdrop, List.nil_append]

/-- The element an operation pushes. -/
def Op.push? : Op α → Option α
  | .push x => some x
  | _       => none

/-- Whether an operation pops. -/
def Op.isPop : Op α → Bool
  | .pop => true
  | _    => false

end StablePriorityQueue

/-- `operator>` of prepared messages, which `std::greater` calls. -/
def PrepearedMessage.greater {B : Build} : PrepearedMessage B → PrepearedMessage B → Bool :=
  StablePriorityQueue.higher PrepearedMessage.priority

variable {B : Build} {conf : Config B} {ch : Choice B}

/-- The queue of a communicator is a `stable_priority_queue` that was used in some way: what was pushed is what the
    communicator pushed, and one element was popped for every message handed to the socket. -/
def Comm.QueueUsed (c : Comm B) : Prop :=
  ∃ ops : List (StablePriorityQueue.Op (PrepearedMessage B)),
    Machine.run (StablePriorityQueue.step PrepearedMessage.greater) [] ops = some c.prepearedMQueue
      ∧ ops.filterMap StablePriorityQueue.Op.push? = c.pushes
      ∧ ops.countP StablePriorityQueue.Op.isPop = c.handed.length

namespace Comm

variable {c c' : Comm B}

/-- A queue in use is sorted. -/
theorem QueueUsed.sorted (h : c.QueueUsed) : PartitionPoint.Sorted PrepearedMessage.greater c.prepearedMQueue := by
  obtain ⟨ops, hrun, -⟩ := h
  have hstart : StablePriorityQueue.ofRange (PrepearedMessage.greater (B := B)) [] = [] := by
    rw [StablePriorityQueue.ofRange, List.mergeSort_nil]
  rw [← hstart] at hrun
  exact (StablePriorityQueue.Conserved.run (StablePriorityQueue.strictWeak_higher _) [] hrun).sorted

theorem QueueUsed.congr (h : c.QueueUsed) (hsame : SameOutgoing c c') : c'.QueueUsed := by
  obtain ⟨hpushes, hhanded, hqueue⟩ := hsame
  unfold QueueUsed
  rw [hpushes, hhanded, hqueue]
  exact h

theorem QueueUsed.push (h : c.QueueUsed) (m : PrepearedMessage B) : (c.pushPrepearedMessage m).QueueUsed := by
  have hplace := StablePriorityQueue.push_higher h.sorted m
  obtain ⟨ops, hrun, hpushes, hpops⟩ := h
  refine ⟨ops ++ [.push m], ?_, ?_, ?_⟩
  · rw [Machine.run_append, hrun, Option.bind_some]
    exact congrArg some hplace
  · rw [pushPrepearedMessage_pushes, List.filterMap_append, hpushes]
    rfl
  · rw [pushPrepearedMessage_handed, List.countP_append, hpops]
    rfl

theorem QueueUsed.send (h : c.QueueUsed) (m : BinMessage B) : (c.prepareToWrite conf m).comm.QueueUsed :=
  prepareToWrite_invariant m h (h.congr (newMid_sameOutgoing c)) (fun _ p hd => hd.push p)

theorem QueueUsed.popAndWrite {m : PrepearedMessage B} (h : c.QueueUsed) (hm : m ∈ c.prepearedMQueue) :
    (c.popAndWrite m).QueueUsed := by
  obtain ⟨ops, hrun, hpushes, hpops⟩ := h
  obtain ⟨x, q, hq⟩ := List.exists_cons_of_ne_nil (List.ne_nil_of_mem hm)
  have hold : (c.popAndWrite m).pushes = c.pushes := filterMap_event (e := .handed m) rfl rfl
  have hnew : (c.popAndWrite m).handed = c.handed ++ [m] := handed_log _ _
  have hqueue : (c.popAndWrite m).prepearedMQueue = q := by rw [popAndWrite_prepearedMQueue, hq, List.tail_cons]
  refine ⟨ops ++ [.pop], ?_, ?_, ?_⟩
  · rw [Machine.run_append, hrun, hq, Option.bind_some, hqueue]
    rfl
  · rw [hold, List.filterMap_append, hpushes]
    exact List.append_nil _
  · rw [hnew, List.countP_append, hpops, List.length_append]
    rfl

end Comm

namespace System

/-- **The vendored queue is the queue the communicator is modelled with**, in every reachable state: the queue is
    what `stable_priority_queue` makes of the communicator's own pushes, one pop for each message handed to the
    socket, and its next push puts any message where the model puts it. -/
theorem prepearedMQueue_used (conf : Config B) (id : CommId) (as : List (Act B)) (s : System B)
    (hrun : Machine.run (System.step conf) (System.init id) as = some s) :
    s.comm.QueueUsed ∧ ∀ m, (s.comm.pushPrepearedMessage m).prepearedMQueue
      = StablePriorityQueue.push PrepearedMessage.greater m s.comm.prepearedMQueue := by
  have hinit : (System.init id : System B).comm.QueueUsed := ⟨[], rfl, rfl, rfl⟩
  have hused : s.Inv ∧ s.comm.QueueUsed := by
    refine Machine.run_invariant (fun s => s.Inv ∧ s.comm.QueueUsed) (fun s a s' hi hs => ⟨hi.1.step hs, ?_⟩) as _ _
      ⟨.init id, hinit⟩ hrun
    rcases step_cases conf hi.1.session hs with ⟨e, c, -, hc, rfl⟩ | ⟨-, -, rfl⟩ | ⟨ch, m, -, hm, rfl⟩
      | ⟨ch, st, -, -, -, heff, -⟩
    · rcases Comm.envStep_cases hc with ⟨m, rfl, rfl⟩ | he
      · exact hi.2.send m
      · exact hi.2.congr (Comm.envStep_sameOutgoing hc he)
    · exact hi.2
    · exact hi.2.popAndWrite (hi.1.copied m hm)
    · refine heff.invariant (fun c c' he h => ?_) hi.2
      rcases he.outgoing with ⟨m, rfl⟩ | hsame
      · exact h.push m
      · exact h.congr hsame
  exact ⟨hused.2, fun m => (StablePriorityQueue.push_higher hused.2.sorted m).symm⟩

/-- Two messages of one priority were pushed, and nothing has been popped yet. -/
theorem prepearedMQueue_used_equal : ∃ s,
    Machine.run (System.step Config.plain) (System.init 1) equalPriority = some s
      ∧ s.comm.QueueUsed ∧ ∀ m, (s.comm.pushPrepearedMessage m).prepearedMQueue
        = StablePriorityQueue.push PrepearedMessage.greater m s.comm.prepearedMQueue :=
  ⟨_, rfl, prepearedMQueue_used .plain 1 equalPriority _ rfl⟩

end System

end Unicomm
