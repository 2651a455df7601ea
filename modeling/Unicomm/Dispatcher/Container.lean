import Std.Data.ExtTreeSet
import Unicomm.Comm.Effects

/-!
# `Dispatcher.Container` — the container of communicators

Models `comm_container.cpp`. A collection is a map from identifiers to shared pointers; the pointer stored
under an identifier is that communicator's, so a collection is the **set of its keys**, and the communicators
themselves are in a heap `comms` beside it. Every function here is one critical section of `_clients_mutex`.
-/

namespace Unicomm

open Std (ExtTreeSet ExtTreeMap)

variable {B : Build}

/-- `comm_collection_type`, iterated in the order of the identifiers. -/
abbrev CommCollection := ExtTreeSet CommId compare

/-- `full_messageid_map_type`. -/
abbrev FullMessageidMap (B : Build) := ExtTreeMap CommId (MessageId B) compare

/-- `comm_container`. -/
structure CommContainer where
  clients  : CommCollection
  /-- The communicators taken out for processing. -/
  excluded : CommCollection

namespace CommContainer

variable (c : CommContainer) (id : CommId)

/-- No communicators. -/
def empty : CommContainer := ⟨∅, ∅⟩

/-- `take_out`: move the first primary client to the excluded ones. -/
def takeOut : Option CommId × CommContainer :=
  match c.clients.toList.head? with
  | some id => (some id, ⟨c.clients.erase id, c.excluded.insert id⟩)
  | none    => (none, c)

/-- `get_back`: an excluded client returns; any other identifier is ignored. -/
def getBack : CommContainer :=
  if id ∈ c.excluded then ⟨c.clients.insert id, c.excluded.erase id⟩ else c

/-- `client_exists`. -/
def clientExists : Prop := id ∈ c.clients ∨ id ∈ c.excluded

instance : Decidable (c.clientExists id) := inferInstanceAs (Decidable (_ ∨ _))

/-- `insert`. -/
def insert : CommContainer := if c.clientExists id then c else { c with clients := c.clients.insert id }

/-- `erase`: from both collections, telling whether anything was erased. -/
def erase : Bool × CommContainer :=
  (decide (c.clientExists id), ⟨c.clients.erase id, c.excluded.erase id⟩)

/-! ## Membership after each operation -/

variable {c id} {k : CommId}

theorem mem_insert {s : CommCollection} : k ∈ s.insert id ↔ k = id ∨ k ∈ s := by
  rw [ExtTreeSet.mem_insert, Std.compare_eq_iff_eq, eq_comm]

theorem mem_erase {s : CommCollection} : k ∈ s.erase id ↔ k ≠ id ∧ k ∈ s := by
  rw [ExtTreeSet.mem_erase, ne_eq, Std.compare_eq_iff_eq, eq_comm]

/-- **What `take_out` does**: nothing, if there is no primary client, or move one. -/
theorem takeOut_cases (c : CommContainer) :
    (c.takeOut = (none, c) ∧ ∀ k, k ∉ c.clients)
      ∨ ∃ id ∈ c.clients, c.takeOut = (some id, ⟨c.clients.erase id, c.excluded.insert id⟩) := by
  rw [takeOut]
  cases hfirst : c.clients.toList.head? with
  | none =>
      refine .inl ⟨rfl, fun k hk => ?_⟩
      rw [← ExtTreeSet.mem_toList, List.head?_eq_none_iff.mp hfirst] at hk
      exact List.not_mem_nil hk
  | some id => exact .inr ⟨id, ExtTreeSet.mem_toList.mp (List.mem_of_head? hfirst), rfl⟩

theorem mem_clients_getBack : k ∈ (c.getBack id).clients ↔ k ∈ c.clients ∨ (k = id ∧ k ∈ c.excluded) := by
  rw [getBack]
  split
  · next h => rw [mem_insert, or_comm]; exact or_congr_right ⟨fun hk => ⟨hk, hk ▸ h⟩, And.left⟩
  · next h => exact ⟨.inl, fun hk => hk.elim (fun hk => hk) (fun hk => absurd (hk.1 ▸ hk.2) h)⟩

theorem mem_excluded_getBack : k ∈ (c.getBack id).excluded ↔ k ∈ c.excluded ∧ k ≠ id := by
  rw [getBack]
  split
  · rw [mem_erase, and_comm]
  · next h => exact ⟨fun hk => ⟨hk, fun he => h (he ▸ hk)⟩, And.left⟩

theorem mem_clients_insert (hno : ¬ c.clientExists id) : k ∈ (c.insert id).clients ↔ k = id ∨ k ∈ c.clients := by
  rw [CommContainer.insert, if_neg hno]
  exact mem_insert

theorem insert_excluded : (c.insert id).excluded = c.excluded := by
  rw [CommContainer.insert]; split <;> rfl

end CommContainer

/-! ## `send_all` -/

/-- What a pass of `send_all` over one collection leaves behind: what it threw, the functor's map of the
    messages sent so far, the caller's message object, and the communicators. -/
structure Sended (B : Build) where
  thrown  : Option Exc
  sended  : FullMessageidMap B
  message : BinMessage B
  comms   : CommId → Comm B

/-- `message_sender` over the clients `ids`. Every `send` gets **the same message object**, with whatever the
    one before wrote into it; an exception ends the pass. -/
def messageSender (conf : Config B) : List CommId → FullMessageidMap B → BinMessage B → (CommId → Comm B) →
    Sended B
  | [],        sended, message, comms => ⟨none, sended, message, comms⟩
  | id :: ids, sended, message, comms =>
      let p     := (comms id).prepareToWrite conf message
      let comms := Function.update comms id p.comm
      match p.result with
      | .error e => ⟨some e, sended, p.message, comms⟩
      | .ok mid  => messageSender conf ids (sended.insertIfNew id mid) p.message comms

/-- `send_all` over one collection. -/
def sendAllPass (conf : Config B) (clients : CommCollection) (message : BinMessage B)
    (comms : CommId → Comm B) : Sended B :=
  messageSender conf clients.toList ∅ message comms

/-- `primary_result.insert(excluded_result.begin(), excluded_result.end())`. -/
def mergeSended (primary excluded : FullMessageidMap B) : FullMessageidMap B :=
  excluded.foldl (fun result id mid => result.insertIfNew id mid) primary

section

variable {conf : Config B}

/-- A pass goes on with what it has where it stands. -/
theorem messageSender_append (ids ids' : List CommId) (sended : FullMessageidMap B) (m : BinMessage B)
    (comms : CommId → Comm B) :
    messageSender conf (ids ++ ids') sended m comms
      = let p := messageSender conf ids sended m comms
        if p.thrown.isSome then p else messageSender conf ids' p.sended p.message p.comms := by
  induction ids generalizing sended m comms with
  | nil => rfl
  | cons id ids ih =>
      rw [List.cons_append, messageSender, messageSender]
      cases ((comms id).prepareToWrite conf m).result with
      | error e => rfl
      | ok mid  => exact ih _ _ _

/-- The map a pass starts with has no influence on anything else. -/
theorem messageSender_sended (ids : List CommId) (sended sended' : FullMessageidMap B) (m : BinMessage B)
    (comms : CommId → Comm B) :
    (messageSender conf ids sended m comms).comms = (messageSender conf ids sended' m comms).comms
      ∧ (messageSender conf ids sended m comms).thrown = (messageSender conf ids sended' m comms).thrown := by
  induction ids generalizing sended sended' m comms with
  | nil => exact ⟨rfl, rfl⟩
  | cons id ids ih =>
      rw [messageSender, messageSender]
      cases ((comms id).prepareToWrite conf m).result with
      | error e => exact ⟨rfl, rfl⟩
      | ok mid  => exact ih _ _ _ _

/-- A pass changes communicators by sends only. -/
theorem messageSender_invariant (ids : List CommId) {inv : Comm B → Prop}
    (hsend : ∀ c m, inv c → inv (c.prepareToWrite conf m).comm) (id : CommId) (sended : FullMessageidMap B)
    (m : BinMessage B) (comms : CommId → Comm B) (h : inv (comms id)) :
    inv ((messageSender conf ids sended m comms).comms id) := by
  induction ids generalizing sended m comms with
  | nil => exact h
  | cons k ids ih =>
      have hone : inv (Function.update comms k ((comms k).prepareToWrite conf m).comm id) := by
        rw [Function.update_apply]
        split
        · next hk => rw [← hk]; exact hsend _ _ h
        · exact h
      rw [messageSender]
      split
      · exact hone
      · exact ih _ _ _ hone

end

/-- The communicators of a `dispatcher`: its container, and the objects the pointers lead to. -/
structure Dispatcher (B : Build) where
  clients : CommContainer
  comms   : CommId → Comm B

end Unicomm
