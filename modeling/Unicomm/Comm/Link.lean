import Mathlib.Logic.Function.Basic
import Unicomm.Comm.Framing
import Unicomm.Comm.Origin
import Unicomm.Lib.Family
import Unicomm.Lib.Projection

/-!
# `Comm.Link` — two communicators joined by a connection

Everything before this is about one communicator and whatever may happen around it. Here the other end is one too:
what one end's socket puts on the wire is what the other end's reads bring in. TCP keeps the bytes in order and
loses none while the connection stands, but it cuts them where it likes and delivers them when it likes, so a step
of the connection brings the next few bytes that an end has not been given yet.

A `Link` is then both ends and how far each has read the other's stream. `ends_run` and `received_trace` take it
apart again: each end goes through a run of `System`, and what its reads delivered is the beginning of the stream
of the other.
-/

namespace Unicomm

variable {B : Build}

/-- The two ends of a connection: the one that connected and the one that accepted. -/
inductive Side where
  | client
  | server
  deriving DecidableEq, Repr

/-- The other end. -/
def Side.peer : Side → Side
  | .client => .server
  | .server => .client

@[simp] theorem Side.peer_peer (side : Side) : side.peer.peer = side := by cases side <;> rfl

theorem Side.peer_ne (side : Side) : side.peer ≠ side := by cases side <;> decide

theorem Side.eq_or_eq_peer (side t : Side) : t = side ∨ t = side.peer := by
  cases side <;> cases t <;> decide

/-- Two communicators and the connection between them. -/
structure Link (B : Build) where
  ends : Side → System B
  /-- How many bytes of its peer's stream each end has been given. -/
  got  : Side → Nat

namespace Link

/-- The atomic steps of a link. -/
inductive Act (B : Build) where
  /-- One end performs a step of its own, other than reading. -/
  | own (side : Side) (a : System.Act B)
  /-- The next `n` bytes of the peer's stream are delivered. -/
  | deliver (side : Side) (n : Nat)

variable (conf : Side → Config B)

/-- The stream of bytes that comes in at one end. -/
def incoming (l : Link B) (side : Side) : Str := (l.ends side.peer).comm.socket.stream

/-- The next `n` bytes for one end. -/
def next (l : Link B) (side : Side) (n : Nat) : Str := ((l.incoming side).drop (l.got side)).take n

/-- Let one end take a step. -/
def stepEnd (l : Link B) (side : Side) (a : System.Act B) : Option (Link B) :=
  (System.step (conf side) (l.ends side) a).map (fun s => { l with ends := Function.update l.ends side s })

/-- One step of the link. -/
def step (l : Link B) : Act B → Option (Link B)
  | .own _ (.env (.readAppend _)) => none
  | .own side a                   => l.stepEnd conf side a
  | .deliver side n               =>
      if 0 < n ∧ l.got side + n ≤ (l.incoming side).length then
        (l.stepEnd conf side (.env (.readAppend (l.next side n)))).map (fun l' =>
          { l' with got := Function.update l.got side (l.got side + n) })
      else none

/-- Both ends fresh, nothing sent. -/
def init (ids : Side → CommId) : Link B := ⟨fun side => System.init (ids side), fun _ => 0⟩

/-- What one end does in a step of the link. -/
def actsOf (side : Side) (l : Link B) : Act B → List (System.Act B)
  | .own t a     => if t = side then [a] else []
  | .deliver t n => if t = side then [.env (.readAppend (l.next t n))] else []

/-- What one end did in a run of the link. -/
def trace (ids : Side → CommId) (side : Side) (as : List (Act B)) : List (System.Act B) :=
  Machine.outputs (step conf) (actsOf side) (init ids) as

variable {conf}

/-- A step of one end that reads nothing is a step of the link. -/
theorem step_own {l : Link B} {side : Side} {b : System.Act B} (hb : ∀ bytes, b ≠ .env (.readAppend bytes)) :
    step conf l (.own side b) = l.stepEnd conf side b := by
  unfold step
  split
  · next heq => cases heq; exact absurd rfl (hb _)
  · next heq => cases heq; rfl
  · next heq => cases heq

/-- **What a step does**: one end takes a step of its own that reads nothing, or the connection delivers. -/
theorem step_cases {l l' : Link B} {a : Act B} (h : step conf l a = some l') :
    (∃ side b s, a = .own side b ∧ System.appended b = [] ∧ System.step (conf side) (l.ends side) b = some s
        ∧ l' = ⟨Function.update l.ends side s, l.got⟩)
      ∨ ∃ side n s, a = .deliver side n ∧ l.got side + n ≤ (l.incoming side).length
          ∧ System.step (conf side) (l.ends side) (.env (.readAppend (l.next side n))) = some s
          ∧ l' = ⟨Function.update l.ends side s, Function.update l.got side (l.got side + n)⟩ := by
  cases a with
  | own side b =>
      by_cases hread : ∃ bytes, b = .env (.readAppend bytes)
      · obtain ⟨bytes, rfl⟩ := hread
        cases h
      · have hown : step conf l (.own side b) = l.stepEnd conf side b := step_own (fun bytes heq => hread ⟨bytes, heq⟩)
        have hquiet : System.appended b = [] := by
          unfold System.appended
          split
          · exact absurd ⟨_, rfl⟩ hread
          · rfl
        rw [hown, stepEnd, Option.map_eq_some_iff] at h
        obtain ⟨s, hs, rfl⟩ := h
        exact .inl ⟨side, b, s, rfl, hquiet, hs, rfl⟩
  | deliver side n =>
      rw [step] at h
      split at h
      · next hn =>
          obtain ⟨l₁, hl₁, rfl⟩ := Option.map_eq_some_iff.mp h
          obtain ⟨s, hs, rfl⟩ := Option.map_eq_some_iff.mp hl₁
          exact .inr ⟨side, n, s, rfl, hn.2, hs, rfl⟩
      · cases h

/-! ## Each end on its own -/

/-- A step of the link is a step of one end and none of the other. -/
theorem ends_step {l l' : Link B} {a : Act B} (side : Side) (h : step conf l a = some l') :
    Machine.run (System.step (conf side)) (l.ends side) (actsOf side l a) = some (l'.ends side) := by
  rcases step_cases h with ⟨t, b, s, rfl, -, hs, rfl⟩ | ⟨t, n, s, rfl, -, hs, rfl⟩
  · unfold actsOf
    by_cases ht : t = side
    · subst ht
      simp [Machine.run, hs]
    · have hother : side ≠ t := fun h => ht h.symm
      simp [ht, hother]
  · unfold actsOf
    by_cases ht : t = side
    · subst ht
      simp [Machine.run, hs]
    · have hother : side ≠ t := fun h => ht h.symm
      simp [ht, hother]

/-- **Each end goes through a run of its own.** -/
theorem ends_run {ids : Side → CommId} {as : List (Act B)} {l : Link B} (side : Side)
    (h : Machine.run (step conf) (init ids) as = some l) :
    Machine.run (System.step (conf side)) (System.init (ids side)) (trace conf ids side as) = some (l.ends side) :=
  Machine.run_project (fun l : Link B => l.ends side) (actsOf side) (fun _ => True) (fun _ _ _ _ _ => trivial)
    (fun _ _ _ _ hs => ends_step side hs) as (init ids) l trivial h

/-- Every step of one end meets a condition. -/
def At (side : Side) (ok : System B → System.Act B → Prop) (l : Link B) (a : Act B) : Prop :=
  ∀ b ∈ actsOf side l a, ok (l.ends side) b

instance (side : Side) (ok : System B → System.Act B → Prop) [∀ s b, Decidable (ok s b)] (l : Link B) (a : Act B) :
    Decidable (At side ok l a) := inferInstanceAs (Decidable (∀ b ∈ actsOf side l a, ok (l.ends side) b))

/-- What the steps of one end meet in the link, they meet in its own run. -/
theorem guarded_ends {ok : System B → System.Act B → Prop} {ids : Side → CommId} {as : List (Act B)} {l : Link B}
    {side : Side} (hg : Machine.Guarded (step conf) (At side ok) (init ids) as)
    (h : Machine.run (step conf) (init ids) as = some l) :
    Machine.Guarded (System.step (conf side)) ok (System.init (ids side)) (trace conf ids side as) := by
  refine Machine.guarded_project (fun l : Link B => l.ends side) (actsOf side) (fun _ => True)
    (fun _ _ _ _ _ => trivial) (fun _ _ _ _ hs => ends_step side hs) (fun l a hok => ?_) as (init ids) l trivial hg h
  cases a with
  | own t b =>
      unfold At at hok
      unfold actsOf at hok ⊢
      split at hok <;> split <;> simp_all [Machine.Guarded]
  | deliver t n =>
      unfold At at hok
      unfold actsOf at hok ⊢
      split at hok <;> split <;> simp_all [Machine.Guarded]

/-! ## The stream between them -/

/-- Nothing leaves a stream again. -/
theorem stream_envStep {conf : Config B} {c c' : Comm B} {e : EnvAct B} (h : c.envStep conf e = some c') :
    c.socket.stream <+: c'.socket.stream := by
  cases e with
  | send m =>
      cases h
      rw [(Comm.send_sameWire m c).2.2]
  | connectSuccess | handshake error | readAppend bytes | readUpdated | readFail error =>
      rw [Comm.envStep] at h
      split at h <;> cases h
      exact List.prefix_rfl
  | writeSome i n =>
      rw [Comm.envStep] at h
      split at h
      · split at h <;> cases h
        exact List.prefix_append _ _
      · cases h
  | writeDone i | writeFail i error =>
      rw [Comm.envStep] at h
      split at h
      · split at h <;> cases h
        rw [Comm.mtAsioWriteHandler_socket]
        exact List.prefix_rfl
      · cases h
  | disconnect =>
      cases h
      rw [Comm.disconnect]
      split <;> exact List.prefix_rfl

/-- The processing thread puts nothing on the wire itself. -/
theorem stream_effects {conf : Config B} {ch : Choice B} {c c' : Comm B} (h : Comm.Effects conf ch c c') :
    c'.socket.stream = c.socket.stream := by
  induction h with
  | refl            => rfl
  | tail _ hlast ih => rw [hlast.sameWire.2.2, ih]

theorem stream_step {conf : Config B} {s s' : System B} {a : System.Act B} (hinv : s.Inv)
    (h : System.step conf s a = some s') : s.comm.socket.stream <+: s'.comm.socket.stream := by
  rcases System.step_cases conf hinv.session h with ⟨e, c, -, hc, rfl⟩ | ⟨-, -, rfl⟩ | ⟨ch, m, -, -, rfl⟩
    | ⟨ch, st, -, -, -, heff, -⟩
  · exact stream_envStep hc
  · exact List.prefix_rfl
  · exact List.prefix_rfl
  · rw [stream_effects heff]

/-- What an end has been given is the beginning of its peer's stream. -/
structure Coupled (l : Link B) (side : Side) (received : Str) : Prop where
  inv   : ∀ t, (l.ends t).Inv
  bound : l.got side ≤ (l.incoming side).length
  given : received = (l.incoming side).take (l.got side)

/-- The stream grows, and what was given stays its beginning. -/
theorem take_of_begins {s t : Str} {n : Nat} (h : s <+: t) (hn : n ≤ s.length) : t.take n = s.take n := by
  obtain ⟨u, rfl⟩ := h
  exact List.take_append_of_le_length hn

theorem Coupled.step {l l' : Link B} {a : Act B} {side : Side} {past : List (System.Act B)}
    (h : l.Coupled side (System.received past)) (hs : Link.step conf l a = some l') :
    l'.Coupled side (System.received (past ++ actsOf side l a)) := by
  have hreceived : System.received (past ++ actsOf side l a)
      = System.received past ++ System.received (actsOf side l a) := List.flatMap_append
  rcases step_cases hs with ⟨t, b, s, rfl, hquiet, hb, rfl⟩ | ⟨t, n, s, rfl, hn, hb, rfl⟩
  · -- a step of either end: nothing is delivered, and the stream may grow
    have hinv : ∀ u, (Function.update l.ends t s u).Inv := Family.forall_update h.inv ((h.inv t).step hb)
    have hstream : l.incoming side <+: incoming ⟨Function.update l.ends t s, l.got⟩ side := by
      unfold incoming
      by_cases ht : side.peer = t
      · subst ht
        simp only [Function.update_self]
        exact stream_step (h.inv _) hb
      · simp only [Function.update_of_ne ht]
        exact List.prefix_rfl
    refine ⟨hinv, h.bound.trans hstream.length_le, ?_⟩
    have hnone : System.received (actsOf side l (.own t b)) = [] := by
      by_cases ht : t = side <;> simp [actsOf, ht, System.received, hquiet]
    rw [hreceived, hnone, List.append_nil, h.given]
    exact (take_of_begins hstream h.bound).symm
  · have hinv : ∀ u, (Function.update l.ends t s u).Inv := Family.forall_update h.inv ((h.inv t).step hb)
    by_cases ht : t = side
    · -- the next bytes come in here, and the peer's stream stays as it is
      subst ht
      have hstream : incoming ⟨Function.update l.ends t s, Function.update l.got t (l.got t + n)⟩ t = l.incoming t := by
        unfold incoming
        simp only [Function.update_of_ne (Side.peer_ne t)]
      refine ⟨hinv, ?_, ?_⟩
      · simp only [hstream, Function.update_self]
        exact hn
      · have hnew : System.received (actsOf t l (.deliver t n)) = l.next t n := by
          simp [actsOf, System.received, System.appended]
        rw [hreceived, hnew, h.given, hstream, next]
        simp only [Function.update_self]
        rw [List.take_add]
    · -- they come in at the other end, whose stream does not grow by that
      have hside : side ≠ t := fun he => ht he.symm
      have hpeer : side.peer = t := (Side.eq_or_eq_peer side t).elim (fun he => absurd he ht) Eq.symm
      have hstream : l.incoming side
          <+: incoming ⟨Function.update l.ends t s, Function.update l.got t (l.got t + n)⟩ side := by
        unfold incoming
        subst hpeer
        simp only [Function.update_self]
        exact stream_step (h.inv _) hb
      have hnone : System.received (actsOf side l (.deliver t n)) = [] := by
        simp [actsOf, ht, System.received]
      refine ⟨hinv, ?_, ?_⟩
      · simp only [Function.update_of_ne hside]
        exact h.bound.trans hstream.length_le
      · rw [hreceived, hnone, List.append_nil, h.given]
        simp only [Function.update_of_ne hside]
        exact (take_of_begins hstream h.bound).symm

/-- **What the reads of an end delivered is the beginning of its peer's stream**, in every reachable state. -/
theorem coupled_run {ids : Side → CommId} {as : List (Act B)} {l : Link B} (side : Side)
    (h : Machine.run (step conf) (init ids) as = some l) :
    l.Coupled side (System.received (trace conf ids side as)) :=
  Machine.run_outputs_of_step (actsOf side) (fun _ past (l : Link B) => l.Coupled side (System.received past))
    (fun _ _ _ _ _ hi hs => hi.step hs) ⟨fun t => .init (ids t), Nat.zero_le _, rfl⟩ h

end Link

end Unicomm
