import Mathlib.Data.List.Sort
import Unicomm.Lib.SplitMap
import Unicomm.Dispatcher.Container

/-!
# `Dispatcher.ContainerRefinement` — the two maps of the container are one

`Dispatcher.Container` looks at which identifiers are where; here the collections are maps, as in the source, from
identifiers to the **pointers** that were inserted, and every operation gives its result. `Spec` is what the container
is for: one map from identifiers to communicators, on which taking out and giving back do nothing.

`Refines` is the simulation between the two. What carries it is that the two maps have no key in common; which keys
are in the second one, the trace of the results tells (`Taken`). With its pointers forgotten the container is that of
`Dispatcher.Container` (`keys_insert` and the lemmas after it).
-/

namespace Unicomm

open Std (ExtTreeMap ExtTreeSet)
open SplitMap

/-- What a shared pointer to a communicator leads to: `communicator::id()` never changes. -/
class CommPointer (P : Type) where
  id : P → CommId

/-- `comm_collection_type`. -/
abbrev CommMap (P : Type) := ExtTreeMap CommId P compare

/-- `comm_container`, with the pointers it holds. -/
structure PtrContainer (P : Type) where
  clients  : CommMap P
  excluded : CommMap P

/-- The operations of the container. -/
inductive ContainerOp (P : Type) where
  | insert (comm : P)
  | erase (id : CommId)
  | clear
  | takeOut
  | getBack (id : CommId)
  | getBackAll
  | get (id : CommId)
  | existsId (id : CommId)
  | size
  | empty
  | communicators

/-- What an operation gives back. -/
inductive ContainerResult (P : Type) where
  | none
  /-- A pointer, perhaps null. -/
  | pointer (comm : Option P)
  | got (comm : Except Exc P)
  | flag (b : Bool)
  | count (n : Nat)
  | comms (m : CommMap P)

variable {P : Type} [CommPointer P]

/-- The exception of `get`. -/
def invalidClient : Exc := .sessionNotFound "Invalid client identifier has been specified"

namespace PtrContainer

variable (c : PtrContainer P) (id : CommId)

/-- `insert_client`: a map's insertion, under the communicator's own identifier. -/
def insertClient (comm : P) (clients : CommMap P) : CommMap P := clients.insertIfNew (CommPointer.id comm) comm

/-- `client_exists`. -/
def clientExists : Bool := c.clients.contains id || c.excluded.contains id

/-- `take_out`. -/
def takeOut : Option P × PtrContainer P :=
  match c.clients.toList.head? with
  | some (_, comm) =>
      (some comm, ⟨c.clients.erase (CommPointer.id comm), insertClient comm c.excluded⟩)
  | none           => (none, c)

/-- `get_back`. -/
def getBack : PtrContainer P :=
  match c.excluded[id]? with
  | some comm => ⟨insertClient comm c.clients, c.excluded.erase id⟩
  | none      => c

/-- `get_back_all`. -/
def getBackAll : PtrContainer P := ⟨insertAll c.clients c.excluded, ∅⟩

/-- `get`. -/
def get : Except Exc P :=
  match c.clients[id]? with
  | some comm => .ok comm
  | none      =>
      match c.excluded[id]? with
      | some comm => .ok comm
      | none      => .error invalidClient

/-- `insert`. -/
def insert (comm : P) : PtrContainer P :=
  if c.clientExists (CommPointer.id comm) then c else { c with clients := insertClient comm c.clients }

/-- `size`. -/
def size : Nat := c.clients.size + c.excluded.size

/-- `empty`. -/
def empty : Bool := c.clients.isEmpty && c.excluded.isEmpty

/-- `clear`. -/
def clear : PtrContainer P := ⟨∅, ∅⟩

/-- `erase`: the numbers of erased entries are or-ed, bit by bit. -/
def erase : Bool × PtrContainer P :=
  let erased := (c.clients.contains id).toNat
  let erased := erased ||| (c.excluded.contains id).toNat
  (erased != 0, ⟨c.clients.erase id, c.excluded.erase id⟩)

/-- `communicators`. -/
def communicators : CommMap P := insertAll c.excluded c.clients

/-- An empty container. -/
def init : PtrContainer P := ⟨∅, ∅⟩

/-- One operation on the container. -/
def step : ContainerOp P → ContainerResult P × PtrContainer P
  | .insert comm   => (.none, c.insert comm)
  | .erase id      => (.flag (c.erase id).1, (c.erase id).2)
  | .clear         => (.none, clear)
  | .takeOut       => (.pointer c.takeOut.1, c.takeOut.2)
  | .getBack id    => (.none, c.getBack id)
  | .getBackAll    => (.none, c.getBackAll)
  | .get id        => (.got (c.get id), c)
  | .existsId id   => (.flag (c.clientExists id), c)
  | .size          => (.count c.size, c)
  | .empty         => (.flag c.empty, c)
  | .communicators => (.comms c.communicators, c)

/-- The results of a sequence of operations, each with its operation, and the container after them. -/
def trace (c : PtrContainer P) : List (ContainerOp P) → List (ContainerOp P × ContainerResult P) × PtrContainer P
  | []        => ([], c)
  | op :: ops =>
      let rest := trace (c.step op).2 ops
      ((op, (c.step op).1) :: rest.1, rest.2)

end PtrContainer

/-! ## What the container is for -/

namespace Spec

/-- One operation on a single map. Taking out and giving back are not its business. -/
def step (m : CommMap P) : ContainerOp P → ContainerResult P × CommMap P
  | .insert comm   => (.none, m.insertIfNew (CommPointer.id comm) comm)
  | .erase id      => (.flag (m.contains id), m.erase id)
  | .clear         => (.none, ∅)
  | .takeOut       => (.none, m)
  | .getBack _     => (.none, m)
  | .getBackAll    => (.none, m)
  | .get id        => (.got (match m[id]? with | some comm => .ok comm | none => .error invalidClient), m)
  | .existsId id   => (.flag (m.contains id), m)
  | .size          => (.count m.size, m)
  | .empty         => (.flag m.isEmpty, m)
  | .communicators => (.comms m, m)

/-- The map after a sequence of operations. -/
def run (ops : List (ContainerOp P)) : CommMap P := ops.foldl (fun m op => (step m op).2) ∅

end Spec

/-- Who is taken out, as the results tell: taking out adds the communicator it gives, giving back removes one or all,
    and what is erased is no longer there. -/
def Taken.step (taken : CommId → Prop) : ContainerOp P × ContainerResult P → CommId → Prop
  | (.takeOut, .pointer (some comm)) => fun k => k = CommPointer.id comm ∨ taken k
  | (.getBack id, _)                 => fun k => k ≠ id ∧ taken k
  | (.erase id, _)                   => fun k => k ≠ id ∧ taken k
  | (.getBackAll, _)                 => fun _ => False
  | (.clear, _)                      => fun _ => False
  | _                                => taken

/-- Who is taken out after a trace. -/
def Taken (trace : List (ContainerOp P × ContainerResult P)) : CommId → Prop :=
  trace.foldl Taken.step (fun _ => False)

/-! ## The simulation -/

/-- **The container refines the map**: its two maps have no key in common and are together the one map, every pointer
    stands under its communicator's identifier, and the second map holds who is taken out. -/
structure Refines (c : PtrContainer P) (m : CommMap P) (taken : CommId → Prop) : Prop where
  apart    : Apart c.clients c.excluded
  whole    : join c.clients c.excluded = m
  primary  : ∀ {k : CommId} {comm : P}, c.clients[k]? = some comm → CommPointer.id comm = k
  reserved : ∀ {k : CommId} {comm : P}, c.excluded[k]? = some comm → CommPointer.id comm = k
  taken    : ∀ k, taken k ↔ k ∈ c.excluded

namespace Refines

variable {c : PtrContainer P} {m : CommMap P} {taken : CommId → Prop}

theorem init : Refines (PtrContainer.init : PtrContainer P) ∅ (fun _ => False) where
  apart    := Apart.empty_right
  whole    := join_empty
  primary  := by intro k comm h; simp [PtrContainer.init] at h
  reserved := by intro k comm h; simp [PtrContainer.init] at h
  taken    := by intro k; simp [PtrContainer.init]

/-- A map insertion under a communicator's own identifier keeps every pointer under its own. -/
theorem id_insertClient {clients : CommMap P} (h : ∀ {k : CommId} {comm : P}, clients[k]? = some comm →
    CommPointer.id comm = k) (new : P) {k : CommId} {comm : P}
    (hget : (PtrContainer.insertClient new clients)[k]? = some comm) : CommPointer.id comm = k := by
  rw [PtrContainer.insertClient, getElem?_insertIfNew] at hget
  rcases Option.or_eq_some_iff.mp hget with hold | ⟨-, hnew⟩
  · exact h hold
  · split at hnew
    · next hk =>
        cases hnew
        exact Std.LawfulEqCmp.eq_of_compare hk
    · cases hnew

theorem id_erase {clients : CommMap P} (h : ∀ {k : CommId} {comm : P}, clients[k]? = some comm →
    CommPointer.id comm = k) {id k : CommId} {comm : P} (hget : (clients.erase id)[k]? = some comm) :
    CommPointer.id comm = k := by
  rw [ExtTreeMap.getElem?_erase] at hget
  split at hget
  · cases hget
  · exact h hget

theorem mem_whole (h : Refines c m taken) {k : CommId} : k ∈ m ↔ k ∈ c.clients ∨ k ∈ c.excluded := by
  rw [← h.whole, mem_join]

theorem clientExists_eq (h : Refines c m taken) (k : CommId) : c.clientExists k = m.contains k := by
  rw [Bool.eq_iff_iff, ExtTreeMap.contains_iff_mem, h.mem_whole, PtrContainer.clientExists, Bool.or_eq_true,
    ExtTreeMap.contains_iff_mem, ExtTreeMap.contains_iff_mem]

theorem get_eq (h : Refines c m taken) (k : CommId) :
    c.get k = match m[k]? with | some comm => .ok comm | none => .error invalidClient := by
  rw [← h.whole, getElem?_join, ← h.apart.or_comm, PtrContainer.get]
  cases c.clients[k]? with
  | some comm => simp
  | none =>
      cases c.excluded[k]? <;> rfl

/-! ### One lemma for each operation that changes something -/

theorem insert (h : Refines c m taken) (comm : P) :
    Refines (c.insert comm) (m.insertIfNew (CommPointer.id comm) comm) taken := by
  rw [PtrContainer.insert, h.clientExists_eq]
  split
  · next hmem =>
      -- it is there, so the map does not take it either
      have hsame : m.insertIfNew (CommPointer.id comm) comm = m := by
        apply ExtTreeMap.ext_getElem?
        intro k
        rw [ExtTreeMap.getElem?_insertIfNew, if_neg]
        exact fun hno => hno.2 (ExtTreeMap.contains_iff_mem.mp hmem)
      rw [hsame]
      exact h
  · next hmem =>
      have hno : CommPointer.id comm ∉ c.excluded := fun hx =>
        hmem (ExtTreeMap.contains_iff_mem.mpr (h.mem_whole.mpr (.inr hx)))
      exact
        { apart    := h.apart.insert hno
          whole    := by rw [← h.whole]; exact join_insert
          primary  := fun hget => id_insertClient h.primary comm hget
          reserved := h.reserved
          taken    := h.taken }

theorem erase (h : Refines c m taken) (id : CommId) :
    Refines (c.erase id).2 (m.erase id) (fun k => k ≠ id ∧ taken k) where
  apart    := h.apart.erase
  whole    := by rw [← h.whole]; exact join_erase
  primary  := fun hget => id_erase h.primary hget
  reserved := fun hget => id_erase h.reserved hget
  taken    := by
    intro k
    show k ≠ id ∧ taken k ↔ k ∈ c.excluded.erase id
    rw [ExtTreeMap.mem_erase, h.taken, ne_eq, ne_eq, Std.compare_eq_iff_eq, eq_comm]

/-- Or-ing the numbers of erased entries tells whether there was one. -/
theorem erase_eq (h : Refines c m taken) (id : CommId) : (c.erase id).1 = m.contains id := by
  rw [← h.clientExists_eq, PtrContainer.erase, PtrContainer.clientExists]
  cases c.clients.contains id <;> cases c.excluded.contains id <;> rfl

/-- **What `take_out` does**: nothing when no primary client is left, else one of them changes sides. -/
theorem takeOut_cases (h : Refines c m taken) :
    (c.takeOut = (none, c) ∧ ∀ k, k ∉ c.clients)
      ∨ ∃ comm, c.clients[CommPointer.id comm]? = some comm ∧ c.takeOut
          = (some comm, ⟨c.clients.erase (CommPointer.id comm),
              PtrContainer.insertClient comm c.excluded⟩) := by
  rw [PtrContainer.takeOut]
  cases hfirst : c.clients.toList.head? with
  | none =>
      left
      refine ⟨rfl, fun k hk => ?_⟩
      have hnil : c.clients = ∅ := ExtTreeMap.toList_eq_nil_iff.mp (List.head?_eq_none_iff.mp hfirst)
      rw [hnil] at hk
      simp at hk
  | some e =>
      right
      obtain ⟨k, comm⟩ := e
      have hget : c.clients[k]? = some comm := ExtTreeMap.mem_toList_iff_getElem?_eq_some.mp (List.mem_of_head? hfirst)
      have hid : CommPointer.id comm = k := h.primary hget
      exact ⟨comm, by rw [hid, hget], rfl⟩

theorem takeOut (h : Refines c m taken) :
    Refines c.takeOut.2 m (Taken.step taken (.takeOut, .pointer c.takeOut.1)) := by
  rcases h.takeOut_cases with ⟨hnone, -⟩ | ⟨comm, hget, hsome⟩
  · rw [hnone]
    exact h
  · rw [hsome]
    exact
      { apart    := h.apart.move
        whole    := by rw [← h.whole]; exact join_move h.apart hget
        primary  := fun hget' => id_erase h.primary hget'
        reserved := fun hget' => id_insertClient h.reserved comm hget'
        taken    := by
          intro k
          show k = CommPointer.id comm ∨ taken k ↔ k ∈ PtrContainer.insertClient comm c.excluded
          rw [PtrContainer.insertClient, ExtTreeMap.mem_insertIfNew, h.taken, Std.compare_eq_iff_eq, eq_comm] }

/-- **`take_out` gives null exactly when everybody is taken out.** -/
theorem takeOut_eq_none (h : Refines c m taken) : c.takeOut.1 = none ↔ ∀ k ∈ m, taken k := by
  rcases h.takeOut_cases with ⟨hnone, hno⟩ | ⟨comm, hget, hsome⟩
  · rw [hnone]
    refine ⟨fun _ k hk => ?_, fun _ => rfl⟩
    exact (h.taken k).mpr ((h.mem_whole.mp hk).resolve_left (hno k))
  · rw [hsome]
    refine ⟨fun hno => absurd hno (Option.some_ne_none comm), fun hall => ?_⟩
    have hmem : CommPointer.id comm ∈ c.clients := by simp [ExtTreeMap.mem_iff_isSome_getElem?, hget]
    exact absurd ((h.taken _).mp (hall _ (h.mem_whole.mpr (.inl hmem)))) (h.apart _ hmem)

theorem getBack (h : Refines c m taken) (id : CommId) :
    Refines (c.getBack id) m (fun k => k ≠ id ∧ taken k) := by
  rw [PtrContainer.getBack]
  cases hget : c.excluded[id]? with
  | none =>
      -- an identifier nobody took out: nothing changes, and it was not taken
      have hno : id ∉ c.excluded := by simp [ExtTreeMap.mem_iff_isSome_getElem?, hget]
      refine { h with taken := fun k => ?_ }
      rw [h.taken]
      exact ⟨fun hk => hk.2, fun hk => ⟨fun he => hno (he ▸ hk), hk⟩⟩
  | some comm =>
      have hid : CommPointer.id comm = id := h.reserved hget
      have hclients : PtrContainer.insertClient comm c.clients = c.clients.insertIfNew id comm := by
        rw [PtrContainer.insertClient, hid]
      exact
        { apart    := by simp only [hclients]; exact h.apart.moveBack
          whole    := by simp only [hclients, ← h.whole]; exact join_moveBack h.apart hget
          primary  := fun hget' => id_insertClient h.primary comm hget'
          reserved := fun hget' => id_erase h.reserved hget'
          taken    := by
            intro k
            show k ≠ id ∧ taken k ↔ k ∈ c.excluded.erase id
            rw [ExtTreeMap.mem_erase, h.taken, ne_eq, ne_eq, Std.compare_eq_iff_eq, eq_comm] }

theorem getBackAll (h : Refines c m taken) : Refines c.getBackAll m (fun _ => False) where
  apart    := Apart.empty_right
  whole    := by rw [← h.whole]; exact join_all h.apart
  primary  := by
    intro k comm hget
    have hor : (insertAll c.clients c.excluded)[k]? = some comm := hget
    rw [getElem?_insertAll] at hor
    exact (Option.or_eq_some_iff.mp hor).elim h.primary (fun hx => h.reserved hx.2)
  reserved := by intro k comm hget; simp [PtrContainer.getBackAll] at hget
  taken    := by intro k; simp [PtrContainer.getBackAll]

/-- **One step of the simulation.** -/
theorem step (h : Refines c m taken) (op : ContainerOp P) :
    Refines (c.step op).2 (Spec.step m op).2 (Taken.step taken (op, (c.step op).1)) := by
  cases op with
  | insert comm => exact h.insert comm
  | erase id    => exact h.erase id
  | clear       => exact init
  | takeOut     => exact h.takeOut
  | getBack id  => exact h.getBack id
  | getBackAll  => exact h.getBackAll
  | get id | existsId id | size | empty | communicators => exact h

/-- **The results are those of the map**, `take_out` apart. -/
theorem result_eq (h : Refines c m taken) {op : ContainerOp P} (hop : op ≠ .takeOut) :
    (c.step op).1 = (Spec.step m op).1 := by
  cases op with
  | takeOut       => exact absurd rfl hop
  | erase id      => exact congrArg ContainerResult.flag (h.erase_eq id)
  | get id        => exact congrArg ContainerResult.got (h.get_eq id)
  | existsId id   => exact congrArg ContainerResult.flag (h.clientExists_eq id)
  | size          =>
      have hsize : c.size = m.size := by rw [← h.whole, size_join h.apart, PtrContainer.size]
      exact congrArg ContainerResult.count hsize
  | empty         =>
      have hempty : c.empty = m.isEmpty := by rw [← h.whole, isEmpty_join, PtrContainer.empty]
      exact congrArg ContainerResult.flag hempty
  | communicators => exact congrArg ContainerResult.comms h.whole
  | insert _ | clear | getBack _ | getBackAll => rfl

/-- A sequence of operations. -/
theorem run (h : Refines c m taken) (ops : List (ContainerOp P)) :
    Refines (c.trace ops).2 (ops.foldl (fun m op => (Spec.step m op).2) m)
      ((c.trace ops).1.foldl Taken.step taken) := by
  induction ops generalizing c m taken with
  | nil => exact h
  | cons op ops ih => exact ih (h.step op)

end Refines

/-! ## The container of identifiers -/

namespace PtrContainer

/-- A collection, with its pointers forgotten. -/
def keySet (clients : CommMap P) : CommCollection := ExtTreeSet.ofList clients.keys compare

/-- The container of `Dispatcher.Container`. -/
def keys (c : PtrContainer P) : CommContainer := ⟨keySet c.clients, keySet c.excluded⟩

omit [CommPointer P] in
theorem mem_keySet {clients : CommMap P} {k : CommId} : k ∈ keySet clients ↔ k ∈ clients := by
  rw [keySet, ExtTreeSet.mem_ofList, List.contains_iff_mem, ExtTreeMap.mem_keys]

omit [CommPointer P] in
/-- Both are iterated in the same order. -/
theorem toList_keySet (clients : CommMap P) : (keySet clients).toList = clients.keys := by
  have hset : (keySet clients).toList.Pairwise (· < ·) :=
    ExtTreeSet.ordered_toList.imp (fun h => Nat.compare_eq_lt.mp h)
  have hkeys : clients.keys.Pairwise (· < ·) := ExtTreeMap.ordered_keys.imp (fun h => Nat.compare_eq_lt.mp h)
  apply List.Pairwise.eq_of_mem_iff hset hkeys
  intro k
  rw [ExtTreeSet.mem_toList, mem_keySet, ExtTreeMap.mem_keys]

theorem keySet_insertClient (clients : CommMap P) (comm : P) :
    keySet (insertClient comm clients) = (keySet clients).insert (CommPointer.id comm) := by
  apply ExtTreeSet.ext_mem
  intro k
  rw [mem_keySet, insertClient, ExtTreeMap.mem_insertIfNew, ExtTreeSet.mem_insert, mem_keySet]

omit [CommPointer P] in
theorem keySet_erase (clients : CommMap P) (id : CommId) : keySet (clients.erase id) = (keySet clients).erase id := by
  apply ExtTreeSet.ext_mem
  intro k
  rw [mem_keySet, ExtTreeMap.mem_erase, ExtTreeSet.mem_erase, mem_keySet]

omit [CommPointer P] in
theorem clientExists_keys (c : PtrContainer P) (id : CommId) : c.keys.clientExists id ↔ c.clientExists id = true := by
  rw [CommContainer.clientExists, clientExists, keys, mem_keySet, mem_keySet, Bool.or_eq_true,
    ExtTreeMap.contains_iff_mem, ExtTreeMap.contains_iff_mem]

theorem keys_insert (c : PtrContainer P) (comm : P) :
    (c.insert comm).keys = c.keys.insert (CommPointer.id comm) := by
  rw [PtrContainer.insert, CommContainer.insert]
  by_cases hmem : c.clientExists (CommPointer.id comm) = true
  · rw [if_pos hmem, if_pos ((clientExists_keys c _).mpr hmem)]
  · rw [if_neg hmem, if_neg (fun h => hmem ((clientExists_keys c _).mp h))]
    simp only [keys, keySet_insertClient]

omit [CommPointer P] in
theorem keys_erase (c : PtrContainer P) (id : CommId) : (c.erase id).2.keys = (c.keys.erase id).2 := by
  simp only [PtrContainer.erase, CommContainer.erase, keys, keySet_erase]

end PtrContainer

namespace Refines

variable {c : PtrContainer P} {m : CommMap P} {taken : CommId → Prop}

/-- `take_out` takes the client whose identifier comes first. -/
theorem keys_takeOut (h : Refines c m taken) :
    c.keys.takeOut = (c.takeOut.1.map CommPointer.id, c.takeOut.2.keys) := by
  rw [CommContainer.takeOut, PtrContainer.takeOut]
  simp only [PtrContainer.keys, PtrContainer.toList_keySet, ← ExtTreeMap.map_fst_toList_eq_keys, List.head?_map]
  cases hfirst : c.clients.toList.head? with
  | none   => rfl
  | some e =>
      obtain ⟨k, comm⟩ := e
      have hget : c.clients[k]? = some comm := ExtTreeMap.mem_toList_iff_getElem?_eq_some.mp (List.mem_of_head? hfirst)
      have hid : CommPointer.id comm = k := h.primary hget
      simp only [Option.map_some, hid, PtrContainer.keySet_erase, PtrContainer.keySet_insertClient]

theorem keys_getBack (h : Refines c m taken) (id : CommId) : (c.getBack id).keys = c.keys.getBack id := by
  rw [PtrContainer.getBack, CommContainer.getBack]
  cases hget : c.excluded[id]? with
  | none =>
      have hno : id ∉ c.keys.excluded := by
        rw [PtrContainer.keys, PtrContainer.mem_keySet]
        simp [ExtTreeMap.mem_iff_isSome_getElem?, hget]
      rw [if_neg hno]
  | some comm =>
      have hmem : id ∈ c.keys.excluded := by
        rw [PtrContainer.keys, PtrContainer.mem_keySet]
        simp [ExtTreeMap.mem_iff_isSome_getElem?, hget]
      have hid : CommPointer.id comm = id := h.reserved hget
      rw [if_pos hmem]
      simp only [PtrContainer.keys, PtrContainer.keySet_insertClient, PtrContainer.keySet_erase, hid]

end Refines

/-- **The two-map container refines a single map.** After any sequence of operations on an empty container, the
    result of the next operation is the one the single map gives, and `take_out` gives null exactly when everybody
    in that map is taken out. -/
theorem container_refines (ops : List (ContainerOp P)) :
    (∀ op, op ≠ .takeOut → ((PtrContainer.init.trace ops).2.step op).1 = (Spec.step (Spec.run ops) op).1)
      ∧ ((PtrContainer.init.trace ops).2.takeOut.1 = none
          ↔ ∀ k ∈ Spec.run ops, Taken (PtrContainer.init.trace ops).1 k) := by
  have h : Refines (PtrContainer.init.trace ops).2 (Spec.run ops) (Taken (PtrContainer.init.trace ops).1) :=
    Refines.init.run ops
  exact ⟨fun op hop => h.result_eq hop, h.takeOut_eq_none⟩

end Unicomm
