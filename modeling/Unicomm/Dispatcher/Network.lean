import Unicomm.Comm.EndToEnd
import Unicomm.Dispatcher.Alone

/-!
# `Dispatcher.Network` — two processes and a connection between them

Each side is a whole dispatcher: any number of threads run it, other threads send, and it has as many connections as
it likes, whose other ends may do anything. One communicator of each side is an end of the connection the sides share,
and it is given what the other one wrote. `run_link` puts two refinements together: seen from that connection, a run
of the network is a run of a `Link`. So what holds at the two ends of a link holds between the two processes,
`delivered_in_order` above all.
-/

namespace Unicomm

variable {B : Build}

namespace Link

variable {conf : Side → Config B}

/-- One end performs several steps of its own. -/
theorem run_own {side : Side} {bs : List (System.Act B)} (hquiet : ∀ b ∈ bs, ∀ bytes, b ≠ .env (.readAppend bytes))
    {l : Link B} {s : System B} (h : Machine.run (System.step (conf side)) (l.ends side) bs = some s) :
    Machine.run (step conf) l (bs.map (.own side)) = some { l with ends := Function.update l.ends side s } := by
  induction bs generalizing l with
  | nil =>
      cases h
      rw [Function.update_eq_self]
      rfl
  | cons b bs ih =>
      obtain ⟨s₁, hs₁, hrest⟩ := Machine.run_cons_eq_some.mp h
      have hone : step conf l (.own side b) = some { l with ends := Function.update l.ends side s₁ } := by
        rw [step_own (hquiet b List.mem_cons_self), stepEnd, hs₁]
        rfl
      have hall := ih (l := { l with ends := Function.update l.ends side s₁ })
        (fun b hb => hquiet b (List.mem_cons_of_mem _ hb)) (by
          change Machine.run (System.step (conf side)) (Function.update l.ends side s₁ side) bs = some s
          rw [Function.update_self]
          exact hrest)
      rw [List.map_cons, Machine.run_cons, hone, Option.bind_some, hall, Function.update_idem]

end Link

/-- Two dispatchers, and how many bytes of the other's stream each end of their connection has been given. -/
structure Network (B : Build) (N M : Side → Nat) where
  hosts : (side : Side) → Running B (N side) (M side)
  got   : Side → Nat

namespace Network

variable {N M : Side → Nat}

/-- The atomic steps of a network. -/
inductive Act (B : Build) (N M : Side → Nat) where
  /-- One side performs a step of its own. -/
  | own (side : Side) (a : Running.Act B (N side) (M side))
  /-- The next `n` bytes are delivered, in the read handler of a thread. -/
  | deliver (side : Side) (t : Fin (M side)) (n : Nat)

variable (conf : Side → Config B) (ids : Side → CommId) (nw : Network B N M)

/-- **The connection alone.** -/
def link : Link B := ⟨fun side => (nw.hosts side).alone (ids side), nw.got⟩

/-- Let one side take a step. -/
def stepHost (side : Side) (a : Running.Act B (N side) (M side)) : Option (Network B N M) :=
  (Running.step (conf side) (nw.hosts side) a).map (fun s => { nw with hosts := Function.update nw.hosts side s })

/-- One step of the network. What communicator `ids side` reads is decided by the connection. -/
def step : Act B N M → Option (Network B N M)
  | .own side a       =>
      match a with
      | .readAppend _ k _ => if k = ids side then none else nw.stepHost conf side a
      | _                 => nw.stepHost conf side a
  | .deliver side t n =>
      if 0 < n ∧ nw.got side + n ≤ ((nw.link ids).incoming side).length then
        (nw.stepHost conf side (.readAppend t (ids side) ((nw.link ids).next side n))).map (fun nw' =>
          { nw' with got := Function.update nw.got side (nw.got side + n) })
      else none

/-- Nothing was connected yet. -/
def init : Network B N M := ⟨fun _ => Running.init, fun _ => 0⟩

/-- A step of the network, for the connection. -/
def linkActs : Act B N M → List (Link.Act B)
  | .own side a       => ((nw.hosts side).actsOf (conf side) (ids side) a).map (.own side)
  | .deliver side _ n => [.deliver side n]

/-- What happened to the connection in a run of the network. -/
def linkTrace (as : List (Act B N M)) : List (Link.Act B) :=
  Machine.outputs (step conf ids) (linkActs conf ids) init as

variable {conf} {ids} {nw} {nw' : Network B N M}

/-- A step meets a condition where it concerns the connection. -/
def Seen (conf : Side → Config B) (ids : Side → CommId) (ok : Link B → Link.Act B → Prop) (nw : Network B N M)
    (a : Act B N M) : Prop :=
  Machine.Guarded (Link.step conf) ok (nw.link ids) (nw.linkActs conf ids a)

instance (ok : Link B → Link.Act B → Prop) [∀ l b, Decidable (ok l b)] (nw : Network B N M) (a : Act B N M) :
    Decidable (Seen conf ids ok nw a) :=
  inferInstanceAs (Decidable (Machine.Guarded (Link.step conf) ok (nw.link ids) (nw.linkActs conf ids a)))

/-! ## Each side -/

/-- Only the read handler reads. -/
theorem quiet_of_step {N M : Nat} {conf : Config B} {s s' : Running B N M} {id : CommId} {a : Running.Act B N M}
    (h : Running.step conf s a = some s') (ha : ∀ t bytes, a ≠ .readAppend t id bytes) :
    ∀ b ∈ s.actsOf conf id a, ∀ bytes, b ≠ .env (.readAppend bytes) := by
  intro b hb bytes heq
  subst heq
  -- a step that concerns one communicator is one step of `System` or none
  have hone : ∀ {p : Prop} [Decidable p] {x : System.Act B},
      .env (.readAppend bytes) ∈ (if p then [x] else []) → p ∧ .env (.readAppend bytes) = x := by
    intro p _ x hx
    obtain ⟨hp, hx⟩ := List.mem_ite_nil_right.mp hx
    exact ⟨hp, List.mem_singleton.mp hx⟩
  cases Running.step_move h with
  | accept | kick => cases hb
  | comm hid he hc | report ht hid he hc =>
      obtain ⟨-, heq⟩ := hone hb
      cases heq
      cases he
  | send =>
      obtain ⟨-, heq⟩ := hone hb
      cases heq
  | sendAllPrimary =>
      obtain ⟨m, -, hm⟩ := List.mem_map.mp hb
      cases hm
  | sendAllExcluded ht =>
      simp only [Running.actsOf, ht] at hb
      obtain ⟨m, -, hm⟩ := List.mem_map.mp hb
      cases hm
  | @readAppend t k bytes' c =>
      obtain ⟨hk, -⟩ := hone hb
      exact ha t bytes' (by rw [hk])
  | readUpdated ht =>
      simp only [Running.actsOf, ht] at hb
      obtain ⟨-, heq⟩ := hone hb
      cases heq
  | start ht | check ht | kickThread ht | getBack ht | finish ht =>
      simp only [Running.actsOf, Running.threadActs, ht] at hb
      cases hb
  | take ht | empty ht =>
      simp only [Running.actsOf, Running.threadActs, ht] at hb
      split at hb
      · obtain ⟨-, heq⟩ := hone hb
        cases heq
      · cases hb
  | stage ht | removed ht =>
      simp only [Running.actsOf, Running.threadActs, ht] at hb
      obtain ⟨-, heq⟩ := hone hb
      cases heq
  | @caught t ch comms k e ht =>
      simp only [Running.actsOf, Running.threadActs, ht] at hb
      obtain ⟨-, hb⟩ := List.mem_ite_nil_right.mp hb
      unfold Running.exceptionActs at hb
      split at hb
      · cases List.mem_singleton.mp hb
      · cases hb

/-- **What a step does**: one side takes a step in which the connection brings nothing, or the connection delivers. -/
theorem step_cases {a : Act B N M} (h : step conf ids nw a = some nw') :
    (∃ side b s, a = .own side b ∧ (∀ t bytes, b ≠ .readAppend t (ids side) bytes)
        ∧ Running.step (conf side) (nw.hosts side) b = some s ∧ nw' = ⟨Function.update nw.hosts side s, nw.got⟩)
      ∨ ∃ side t n s, a = .deliver side t n
          ∧ (0 < n ∧ nw.got side + n ≤ ((nw.link ids).incoming side).length)
          ∧ Running.step (conf side) (nw.hosts side) (.readAppend t (ids side) ((nw.link ids).next side n)) = some s
          ∧ nw' = ⟨Function.update nw.hosts side s, Function.update nw.got side (nw.got side + n)⟩ := by
  cases a with
  | own side b =>
      by_cases hread : ∃ t bytes, b = .readAppend t (ids side) bytes
      · obtain ⟨t, bytes, rfl⟩ := hread
        rw [step] at h
        simp at h
      · have hown : nw.stepHost conf side b = some nw' := by
          cases b with
          | readAppend t k bytes =>
              rw [step, if_neg (fun hk => hread ⟨t, bytes, by rw [hk]⟩)] at h
              exact h
          | _ => exact h
        obtain ⟨s, hs, rfl⟩ := Option.map_eq_some_iff.mp hown
        exact .inl ⟨side, b, s, rfl, fun t bytes he => hread ⟨t, bytes, he⟩, hs, rfl⟩
  | deliver side t n =>
      rw [step] at h
      split at h
      · next hn =>
          obtain ⟨nw₁, hnw₁, rfl⟩ := Option.map_eq_some_iff.mp h
          obtain ⟨s, hs, rfl⟩ := Option.map_eq_some_iff.mp hnw₁
          exact .inr ⟨side, t, n, s, rfl, hn, hs, rfl⟩
      · cases h

/-- One side has moved. -/
theorem link_update {side : Side} {s : Running B (N side) (M side)} {got : Side → Nat} :
    (⟨Function.update nw.hosts side s, got⟩ : Network B N M).link ids
      = ⟨Function.update (nw.link ids).ends side (s.alone (ids side)), got⟩ := by
  unfold link
  congr 1
  funext t
  by_cases ht : t = side
  · subst ht
    simp only [Function.update_self]
  · simp only [Function.update_of_ne ht]

/-! ## The connection -/

/-- Both dispatchers keep their communicators apart. -/
def Exclusive (nw : Network B N M) : Prop := ∀ side, (nw.hosts side).Exclusive

theorem Exclusive.step {a : Act B N M} (h : nw.Exclusive) (hs : Network.step conf ids nw a = some nw') :
    nw'.Exclusive := by
  have hupdate : ∀ {side : Side} {s : Running B (N side) (M side)}, s.Exclusive →
      ∀ t, (Function.update nw.hosts side s t).Exclusive := by
    intro side s hside t
    by_cases ht : t = side
    · subst ht
      rw [Function.update_self]
      exact hside
    · rw [Function.update_of_ne ht]
      exact h t
  rcases step_cases hs with ⟨side, b, s, -, -, hb, rfl⟩ | ⟨side, t, n, s, -, -, hb, rfl⟩
  · exact hupdate ((h side).move (Running.step_move hb))
  · exact hupdate ((h side).move (Running.step_move hb))

/-- **Each step of the network is explained.** -/
theorem run_link {a : Act B N M} (h : nw.Exclusive) (hs : step conf ids nw a = some nw') :
    Machine.run (Link.step conf) (nw.link ids) (nw.linkActs conf ids a) = some (nw'.link ids) := by
  rcases step_cases hs with ⟨side, b, s, rfl, hquiet, hb, rfl⟩ | ⟨side, t, n, s, rfl, hn, hb, rfl⟩
  · rw [link_update]
    exact Link.run_own (quiet_of_step hb hquiet) (Running.run_step (ids side) (h side) hb)
  · have hone := Running.run_step (ids side) (h side) hb
    rw [Running.actsOf, if_pos rfl] at hone
    obtain ⟨s', hend, hs'⟩ := Machine.run_cons_eq_some.mp hone
    cases hs'
    have hn' : 0 < n ∧ (nw.link ids).got side + n ≤ ((nw.link ids).incoming side).length := hn
    have hends : System.step (conf side) ((nw.link ids).ends side) (.env (.readAppend ((nw.link ids).next side n)))
        = some (s.alone (ids side)) := hend
    rw [link_update, linkActs, Machine.run_cons, Link.step, if_pos hn', Link.stepEnd, hends]
    rfl

/-- **Seen from the connection, a run of the network is a run of a link.** -/
theorem linkTrace_run {as : List (Act B N M)} (hrun : Machine.run (step conf ids) init as = some nw) :
    Machine.run (Link.step conf) (Link.init ids) (linkTrace conf ids as) = some (nw.link ids) := by
  have hinit : (init : Network B N M).link ids = Link.init ids := by
    unfold link init Link.init
    simp only [Running.alone_init]
  rw [← hinit]
  exact Machine.run_project (link ids) (linkActs conf ids) Exclusive (fun _ _ _ h hs => h.step hs)
    (fun _ _ _ h hs => run_link h hs) as init nw (fun _ => .init) hrun

/-- What the steps meet where they concern the connection, they meet in its own run. -/
theorem guarded_link {ok : Link B → Link.Act B → Prop} {as : List (Act B N M)}
    (hok : Machine.Guarded (step conf ids) (Seen conf ids ok) init as)
    (hrun : Machine.run (step conf ids) init as = some nw) :
    Machine.Guarded (Link.step conf) ok (Link.init ids) (linkTrace conf ids as) := by
  have hinit : (init : Network B N M).link ids = Link.init ids := by
    unfold link init Link.init
    simp only [Running.alone_init]
  rw [← hinit]
  exact Machine.guarded_project (link ids) (linkActs conf ids) Exclusive (fun _ _ _ h hs => h.step hs)
    (fun _ _ _ h hs => run_link h hs) (fun _ _ h => h) as init nw (fun _ => .init) hok hrun

/-! ## In order -/

/-- The communicator at one end of the connection. -/
def commAt (ids : Side → CommId) (nw : Network B N M) (side : Side) : Comm B := (nw.hosts side).comms (ids side)

/-- What the session of one end is given does not show what its dispatcher recorded. -/
theorem arrivals_link (nw : Network B N M) (side : Side) :
    ((nw.link ids).ends side).comm.arrivals = (nw.commAt ids side).arrivals :=
  Comm.filterMap_own (fun e he => by cases e <;> first | rfl | cases he) _

theorem handed_link (nw : Network B N M) (side : Side) :
    ((nw.link ids).ends side).comm.handed = (nw.commAt ids side).handed :=
  Comm.filterMap_own (fun e he => by cases e <;> first | rfl | cases he) _

/-- **Between two processes, what one sends arrives at the other in order, at most once, and nothing else arrives.**
    Each process runs its dispatcher with any number of threads and serves other connections besides; messages are
    sent with `send`, with `send_all` and as replies. If both ends have the binary format and the sender's socket
    transfers from its oldest write and starts none under an identifier that still has a buffer, then the messages
    its handler calls and callers gave to the connection, in the order the socket got them, are such that the other
    end's handler was called with some of them, in that order. -/
theorem delivered_between_hosts (conf : Side → Config B) (factory : Side → FreshFactory B)
    (hconf : ∀ side, (conf side).Binary (factory side)) (ids : Side → CommId) (as : List (Act B N M))
    (nw : Network B N M) (side : Side)
    (hok : Machine.Guarded (step conf ids) (Seen conf ids (Link.At side.peer System.WritesApart)) init as)
    (hrun : Machine.run (step conf ids) init as = some nw) :
    ∃ ms k, HandedOver (conf side.peer) (Link.trace conf ids side.peer (linkTrace conf ids as))
          (nw.commAt ids side.peer) ms
        ∧ ((nw.commAt ids side).arrivals.map BinMessage.wire).Sublist
            ((shortHeaded (ms.take k)).map BinMessage.wire) := by
  have hlink := linkTrace_run hrun
  have hturn := guarded_link hok hrun
  obtain ⟨ms, hms⟩ := exists_handedOver (Link.ends_run side.peer hlink)
  have harrivals := (Link.arrivals_sublist hconf hturn hlink hms).2.map BinMessage.wire
  have hwire : ∀ ms : List (BinMessage B),
      (ms.map (factory side).received).map BinMessage.wire = ms.map BinMessage.wire := by
    intro ms
    rw [List.map_map]
    exact List.map_congr_left (fun m _ => (factory side).wire_received m)
  rw [hwire, arrivals_link] at harrivals
  unfold HandedOver at hms
  rw [handed_link, arrivals_link] at hms
  exact ⟨ms, _, hms, harrivals⟩

/-- The one thread, and the one acceptor or connector, of a host. -/
def only : Fin 1 := ⟨0, Nat.one_pos⟩

/-- One side accepts or makes a connection, and its thread goes round once. -/
def begins (side : Side) : List (Act .lp64 (fun _ => 1) (fun _ => 1)) :=
  (Running.accepted only 1).map (fun a => .own side a) ++ List.replicate 13 (.own side (.thread only .plain))

/-- The client sends message `a`, and the server's thread takes its communicator out and calls the handler. -/
def carries : List (Act .lp64 (fun _ => 1) (fun _ => 1)) :=
  begins .client ++ [.own .client (.send only 1 ⟨[0x61], 0, 0, 0, []⟩)]
    ++ List.replicate 3 (.own .client (.kick only)) ++ List.replicate 11 (.own .client (.thread only .plain))
    ++ [.own .client (.comm 1 (.writeSome 0 13))] ++ begins .server
    ++ [.deliver .server only 13, .own .server (.readUpdated only)]
    ++ List.replicate 3 (.own .server (.kick only)) ++ List.replicate 6 (.own .server (.thread only .plain))

theorem delivered_between_hosts_carries : ∃ nw,
    Machine.run (step (fun _ => Config.asking) (fun _ => 1)) init carries = some nw
      ∧ (nw.commAt (fun _ => 1) .server).arrivals.map BinMessage.wire = [([0x61], 1, 0, [])]
      ∧ ∃ ms k, HandedOver Config.asking (Link.trace (fun _ => Config.asking) (fun _ => 1) .client
            (linkTrace (fun _ => Config.asking) (fun _ => 1) carries)) (nw.commAt (fun _ => 1) .client) ms
          ∧ ((nw.commAt (fun _ => 1) .server).arrivals.map BinMessage.wire).Sublist
              ((shortHeaded (ms.take k)).map BinMessage.wire) := by
  have hrun : (Machine.run (step (fun _ => Config.asking) (fun _ => 1)) init carries).any (fun nw =>
      (nw.commAt (fun _ => 1) .server).arrivals.map BinMessage.wire == [([0x61], 1, 0, [])]) = true := by decide +kernel
  obtain ⟨nw, hnw, harrived⟩ := (Option.any_eq_true _ _).mp hrun
  exact ⟨nw, hnw, eq_of_beq harrived, delivered_between_hosts (fun _ => Config.asking) (fun _ => FreshFactory.plain)
    Link.asking_binary (fun _ => 1) carries nw .server (by decide +kernel) hnw⟩

end Network

end Unicomm
