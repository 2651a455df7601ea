import Mathlib.Algebra.Order.Group.Multiset
import Mathlib.Tactic.Abel
import Mathlib.Tactic.FinCases
import Unicomm.Lib.Family
import Unicomm.Lib.Machine

/-!
# `Client.ConnectErrors` — reporting failed connects

`asio_connect_handler` appends the error of a failed connect to `_conn_errors`, and every thread that runs
`process()` drains that collection in `process_connect_error`: test, copy the front, erase the first, call the
handlers, test again. No lock holds these steps together. A thread that has passed the test relies on what it
saw until it has erased; while nobody else takes an error in that time (`Alone`) every error is taken once, and
each of its handlers is called once unless one before it throws (`connect_errors_reported_once`). Any other test
can be followed by a `front()` or `erase` on an empty collection.

The model covers the time between two resets: `on_reset` clears the collection while nobody works.
-/

namespace Unicomm

variable {E H : Type} {N : Nat}

/-- `client::connect_error_info`: the end point, the handler given to `connect`, if any, and the error code. -/
structure ConnectErrorInfo (E H : Type) where
  endpoint     : E
  errorHandler : Option H
  errorCode    : Nat
  deriving DecidableEq, Repr

/-- `connect_error_params`, without the reference to the client: what a handler is called with. -/
structure ConnectErrorParams (E : Type) where
  remoteEndpoint : E
  errorCode      : Nat
  deriving DecidableEq, Repr

/-- A handler and what it is called with. -/
abbrev HandlerCall (E H : Type) := H × ConnectErrorParams E

namespace ConnectErrorInfo

/-- What the handlers of this error are called with. -/
def params (info : ConnectErrorInfo E H) : ConnectErrorParams E := ⟨info.endpoint, info.errorCode⟩

/-- The handlers `call_conn_error` calls, in order: the one given to `connect`, then those connected to
    `_conn_error_signal`. -/
def handlers (slots : List H) (info : ConnectErrorInfo E H) : List H := info.errorHandler.toList ++ slots

/-- The calls an error is due. -/
def calls (slots : List H) (info : ConnectErrorInfo E H) : List (HandlerCall E H) :=
  (info.handlers slots).map (·, info.params)

end ConnectErrorInfo

/-- Where a thread stands in `process_connect_error`. -/
inductive DrainPos (E H : Type) where
  | idle
  /-- The test of the `while` comes next. -/
  | looping
  /-- The collection was not empty; `front()` comes next. -/
  | copying
  /-- The front is copied; `erase` comes next. -/
  | erasing (info : ConnectErrorInfo E H)
  /-- `call_conn_error` calls `handler` next, then the `rest`. -/
  | calling (info : ConnectErrorInfo E H) (handler : H) (rest : List H)

namespace DrainPos

/-- The thread relies on the collection not being empty. -/
def taking : DrainPos E H → Bool
  | .copying | .erasing _ => true
  | _                     => false

/-- `call_conn_error` with these handlers still to be called; after the last one the loop goes on. -/
def callOn (info : ConnectErrorInfo E H) : List H → DrainPos E H
  | []              => .looping
  | handler :: rest => .calling info handler rest

/-- The calls the thread has still to make. -/
def owed : DrainPos E H → List (HandlerCall E H)
  | .calling info handler rest => (handler :: rest).map (·, info.params)
  | _                          => []

/-- The handlers that are not called if the next one throws. -/
def skipped : DrainPos E H → List (HandlerCall E H)
  | .calling info _ rest => rest.map (·, info.params)
  | _                    => []

@[simp] theorem owed_callOn (info : ConnectErrorInfo E H) (handlers : List H) :
    (callOn info handlers).owed = handlers.map (·, info.params) := by
  cases handlers <;> rfl

@[simp] theorem taking_callOn (info : ConnectErrorInfo E H) (handlers : List H) :
    (callOn info handlers).taking = false := by
  cases handlers <;> rfl

end DrainPos

/-- A client as far as failed connects go. -/
structure Client (E H : Type) (N : Nat) where
  /-- `_conn_errors`. -/
  connErrors : List (ConnectErrorInfo E H)
  /-- The threads that run `process()`. -/
  threads    : Fin N → DrainPos E H
  /-- Everything `reg_conn_error` was called with. **No step reads this, or what follows.** -/
  registered : List (ConnectErrorInfo E H)
  /-- Everything `call_conn_error` was called with. -/
  reported   : List (ConnectErrorInfo E H)
  /-- The calls of handlers. -/
  called     : List (HandlerCall E H)
  /-- `front()` or `erase` met an empty collection. -/
  failed     : Bool

namespace Client

/-- The atomic steps. -/
inductive Act (E H : Type) (N : Nat) where
  /-- `asio_connect_handler`. -/
  | connectHandler (info : ConnectErrorInfo E H) (error : Nat)
  /-- `process()` begins: `is_connect_error`. -/
  | process (t : Fin N)
  /-- The test of the `while`. -/
  | test (t : Fin N)
  /-- `_conn_errors.front()`. -/
  | copy (t : Fin N)
  /-- `_conn_errors.erase(_conn_errors.begin())`. -/
  | erase (t : Fin N)
  /-- The next handler is called; an exception leaves `process_connect_error` and ends in
      `call_extra_process`. -/
  | call (t : Fin N) (throws : Bool)

/-- `reg_conn_error`. -/
def regConnError (s : Client E H N) (info : ConnectErrorInfo E H) : Client E H N :=
  { s with connErrors := s.connErrors ++ [info], registered := s.registered ++ [info] }

/-- Thread `t` moves to another position. -/
def goTo (s : Client E H N) (t : Fin N) (pos : DrainPos E H) : Client E H N :=
  { s with threads := Function.update s.threads t pos }

@[simp] theorem goTo_self (s : Client E H N) (t : Fin N) (pos : DrainPos E H) : (s.goTo t pos).threads t = pos :=
  Function.update_self ..

theorem goTo_of_ne (s : Client E H N) {t u : Fin N} (pos : DrainPos E H) (hut : u ≠ t) :
    (s.goTo t pos).threads u = s.threads u := Function.update_of_ne hut ..

/-- One step; `none` when the thread stands elsewhere. -/
def step (slots : List H) (s : Client E H N) : Act E H N → Option (Client E H N)
  | .connectHandler info error =>
      some (if error ≠ 0 then s.regConnError { info with errorCode := error } else s)
  | .process t =>
      match s.threads t with
      | .idle => some (s.goTo t (if s.connErrors.isEmpty then .idle else .looping))
      | _     => none
  | .test t =>
      match s.threads t with
      | .looping => some (s.goTo t (if s.connErrors.isEmpty then .idle else .copying))
      | _        => none
  | .copy t =>
      match s.threads t, s.connErrors with
      | .copying, info :: _ => some (s.goTo t (.erasing info))
      | .copying, []        => some { s with failed := true }
      | _, _                => none
  | .erase t =>
      match s.threads t, s.connErrors with
      | .erasing info, _ :: errors => some { s.goTo t (.callOn info (info.handlers slots)) with
          connErrors := errors
          reported   := s.reported ++ [info] }
      | .erasing _, [] => some { s with failed := true }
      | _, _           => none
  | .call t throws =>
      match s.threads t with
      | .calling info handler rest => some { s.goTo t (if throws then .idle else .callOn info rest) with
          called := s.called ++ [(handler, info.params)] }
      | _ => none

/-- Nothing has failed yet, and nobody is in `process()`. -/
def init : Client E H N := ⟨[], fun _ => .idle, [], [], [], false⟩

/-- The test of the `while` finds an error only when nobody else is taking one. -/
def Alone (s : Client E H N) : Act E H N → Prop
  | .test t => s.connErrors.isEmpty = false → ∀ u, u ≠ t → (s.threads u).taking = false
  | _       => True

/-- The calls of handlers that an exception prevents. -/
def drops (s : Client E H N) : Act E H N → List (HandlerCall E H)
  | .call t true => (s.threads t).skipped
  | _            => []

/-- A handler that throws is the last one of its error. -/
def LastThrows (s : Client E H N) (a : Act E H N) : Prop := (s.drops a).isEmpty = true

instance (s : Client E H N) : ∀ a, Decidable (Alone s a)
  | .test _ => inferInstanceAs (Decidable (_ → ∀ _, _ → _))
  | .connectHandler _ _ | .process _ | .copy _ | .erase _ | .call _ _ => inferInstanceAs (Decidable True)

instance (s : Client E H N) (a : Act E H N) : Decidable (LastThrows s a) := inferInstanceAs (Decidable (_ = true))

/-- Every error is taken, and nobody is in `process()`. -/
structure AtRest (s : Client E H N) : Prop where
  threads    : ∀ t, s.threads t = .idle
  connErrors : s.connErrors = []

/-- The calls that the failed connects are due. -/
def due (slots : List H) (s : Client E H N) : List (HandlerCall E H) :=
  s.registered.flatMap (·.calls slots)

variable {slots : List H} {s s' : Client E H N} {a : Act E H N} {t : Fin N}

/-! ## What a step does -/

/-- The ways a step can change the client. -/
inductive Move (slots : List H) (s : Client E H N) : Act E H N → Client E H N → Prop where
  | register (info : ConnectErrorInfo E H) (error : Nat) (errors : List (ConnectErrorInfo E H)) :
      Move slots s (.connectHandler info error)
        { s with connErrors := s.connErrors ++ errors, registered := s.registered ++ errors }
  /-- `process()` begins, or a thread leaves the loop. -/
  | turn {a : Act E H N} (t : Fin N) (pos : DrainPos E H) (hdrops : s.drops a = [])
      (hfrom : (s.threads t).owed = []) (hpos : pos.taking = false ∧ pos.owed = []) : Move slots s a (s.goTo t pos)
  | test (t : Fin N) (hpos : s.threads t = .looping) (hne : s.connErrors.isEmpty = false) :
      Move slots s (.test t) (s.goTo t .copying)
  | copy (t : Fin N) (info : ConnectErrorInfo E H) (hpos : s.threads t = .copying)
      (hfront : s.connErrors.head? = some info) : Move slots s (.copy t) (s.goTo t (.erasing info))
  | erase (t : Fin N) (info front : ConnectErrorInfo E H) (errors : List (ConnectErrorInfo E H))
      (hpos : s.threads t = .erasing info) (herrors : s.connErrors = front :: errors) :
      Move slots s (.erase t) { s.goTo t (.callOn info (info.handlers slots)) with
        connErrors := errors
        reported   := s.reported ++ [info] }
  | call (t : Fin N) (throws : Bool) (info : ConnectErrorInfo E H) (handler : H) (rest : List H)
      (hpos : s.threads t = .calling info handler rest) :
      Move slots s (.call t throws) { s.goTo t (if throws then .idle else .callOn info rest) with
        called := s.called ++ [(handler, info.params)] }
  | fail (a : Act E H N) (t : Fin N) (hpos : (s.threads t).taking = true) (hempty : s.connErrors = []) :
      Move slots s a { s with failed := true }

theorem step_move (h : step slots s a = some s') : Move slots s a s' := by
  cases a with
  | connectHandler info error =>
      cases h
      by_cases herr : error = 0
      · rw [if_neg (not_not.mpr herr)]
        have hsame : Move slots s (.connectHandler info error) { s with
            connErrors := s.connErrors ++ [], registered := s.registered ++ [] } := .register info error []
        simpa using hsame
      · rw [if_pos herr]
        exact .register info error [_]
  | process t =>
      rw [step] at h
      split at h
      · next hpos =>
          cases h
          refine .turn t _ rfl (by rw [hpos]; rfl) ?_
          split <;> exact ⟨rfl, rfl⟩
      · cases h
  | test t =>
      rw [step] at h
      split at h
      · next hpos =>
          cases h
          by_cases hempty : s.connErrors.isEmpty = true
          · rw [if_pos hempty]
            exact .turn t _ rfl (by rw [hpos]; rfl) ⟨rfl, rfl⟩
          · rw [if_neg hempty]
            exact .test t hpos (Bool.eq_false_iff.mpr hempty)
      · cases h
  | copy t =>
      rw [step] at h
      split at h
      · next info errors hpos herrors =>
          cases h
          exact .copy t info hpos (by rw [herrors]; rfl)
      · next hpos hempty =>
          cases h
          exact .fail _ t (by rw [hpos]; rfl) hempty
      · cases h
  | erase t =>
      rw [step] at h
      split at h
      · next info front errors hpos herrors =>
          cases h
          exact .erase t info front errors hpos herrors
      · next hpos hempty =>
          cases h
          exact .fail _ t (by rw [hpos]; rfl) hempty
      · cases h
  | call t throws =>
      rw [step] at h
      split at h
      · next info handler rest hpos =>
          cases h
          exact .call t throws info handler rest hpos
      · cases h

/-! ## What guarded steps keep -/

/-- **At most one thread is taking an error**, and what it has copied is still in front. -/
structure Sole (s : Client E H N) : Prop where
  single : ∀ t u, (s.threads t).taking = true → (s.threads u).taking = true → t = u
  filled : ∀ t, (s.threads t).taking = true → s.connErrors ≠ []
  front  : ∀ t info, s.threads t = .erasing info → s.connErrors.head? = some info
  failed : s.failed = false

theorem Sole.init : Sole (Client.init : Client E H N) where
  single _ _ h := by cases h
  filled _ h   := by cases h
  front _ _ h  := by cases h
  failed       := rfl

/-- A thread moves to a position where it takes nothing. -/
theorem Sole.goTo (h : s.Sole) {pos : DrainPos E H} (hpos : pos.taking = false) : (s.goTo t pos).Sole := by
  have hother : ∀ u, ((s.goTo t pos).threads u).taking = true → (s.goTo t pos).threads u = s.threads u := by
    intro u hu
    by_cases hut : u = t
    · subst hut
      rw [goTo_self, hpos] at hu
      cases hu
    · exact s.goTo_of_ne pos hut
  refine ⟨fun u v hu hv => ?_, fun u hu => ?_, fun u info hu => ?_, h.failed⟩
  · exact h.single u v (hother u hu ▸ hu) (hother v hv ▸ hv)
  · exact h.filled u (hother u hu ▸ hu)
  · have htaking : ((s.goTo t pos).threads u).taking = true := by rw [hu]; rfl
    exact h.front u info (hother u htaking ▸ hu)

/-- A thread takes, or goes on taking, the first error, and nobody else does. -/
theorem Sole.take (h : s.Sole) {pos : DrainPos E H} (hothers : ∀ u, u ≠ t → (s.threads u).taking = false)
    (hne : s.connErrors ≠ []) (hpos : ∀ info, pos = .erasing info → s.connErrors.head? = some info) :
    (s.goTo t pos).Sole := by
  have hsole : ∀ u, ((s.goTo t pos).threads u).taking = true → u = t := by
    intro u hu
    by_contra hut
    rw [s.goTo_of_ne pos hut, hothers u hut] at hu
    cases hu
  refine ⟨fun u v hu hv => (hsole u hu).trans (hsole v hv).symm, fun _ _ => hne, fun u info hu => ?_, h.failed⟩
  have hut : u = t := hsole u (by rw [hu]; rfl)
  subst hut
  rw [goTo_self] at hu
  exact hpos info hu

/-- Nobody else is taking an error while `t` is. -/
theorem Sole.others (h : s.Sole) (ht : (s.threads t).taking = true) (u : Fin N) (hut : u ≠ t) :
    (s.threads u).taking = false :=
  Bool.eq_false_iff.mpr (fun hu => hut (h.single u t hu ht))

theorem Sole.move (h : s.Sole) (hok : Alone s a) (hmove : Move slots s a s') : s'.Sole := by
  cases hmove with
  | register info error errors =>
      refine ⟨h.single, fun t ht hno => ?_, fun t info ht => ?_, h.failed⟩
      · exact h.filled t ht (List.append_eq_nil_iff.mp hno).1
      · -- errors are appended, so what has been copied is still in front
        show (s.connErrors ++ errors).head? = some info
        rw [List.head?_append, h.front t info ht, Option.some_or]
  | turn t pos hdrops hfrom hpos => exact h.goTo hpos.1
  | test t hpos hne =>
      -- the only way to begin taking an error, and what the guarantee is about
      exact h.take (hok hne) (fun hno => by rw [hno] at hne; cases hne) (fun _ hp => by cases hp)
  | copy t info hpos hfront =>
      have ht : (s.threads t).taking = true := by rw [hpos]; rfl
      refine h.take (h.others ht) (h.filled t ht) (fun info' hp => ?_)
      cases hp
      exact hfront
  | erase t info front errors hpos herrors =>
      have ht : (s.threads t).taking = true := by rw [hpos]; rfl
      -- the one that was taking has finished, so nobody relies on the collection
      have hnone : ∀ u, ((s.goTo t (.callOn info (info.handlers slots))).threads u).taking = false :=
        Family.forall_update_of_ne (P := fun pos : DrainPos E H => pos.taking = false) (h.others ht)
          (DrainPos.taking_callOn info _)
      refine ⟨fun u _ hu => ?_, fun u hu => ?_, fun u info' hu => ?_, h.failed⟩
      · exact absurd hu (Bool.eq_false_iff.mp (hnone u))
      · exact absurd hu (Bool.eq_false_iff.mp (hnone u))
      · have hu' : (DrainPos.erasing info').taking = false := hu ▸ hnone u
        cases hu'
  | call t throws info handler rest hpos =>
      have hgo : (s.goTo t (if throws then .idle else .callOn info rest)).Sole := by
        apply h.goTo
        split
        · rfl
        · exact DrainPos.taking_callOn info rest
      exact ⟨hgo.single, hgo.filled, hgo.front, hgo.failed⟩
  | fail _ t hpos hempty => exact absurd hempty (h.filled t hpos)

/-- The calls that the threads have still to make. -/
def outstanding (s : Client E H N) : Multiset (HandlerCall E H) :=
  Family.total (fun pos => (pos.owed : Multiset (HandlerCall E H))) s.threads

/-- The calls that a list of errors is due. -/
def callsOf (slots : List H) (infos : List (ConnectErrorInfo E H)) : Multiset (HandlerCall E H) :=
  (infos.flatMap (·.calls slots) : List (HandlerCall E H))

/-- **What has become of the errors.** Each is reported or in the collection; the calls due to the reported ones
    were made, are still to be made, or were prevented by an exception (`dropped`). -/
structure Accounts (slots : List H) (dropped : Multiset (HandlerCall E H)) (s : Client E H N) : Prop where
  errors : s.reported ++ s.connErrors = s.registered
  calls  : (s.called : Multiset (HandlerCall E H)) + s.outstanding + dropped = callsOf slots s.reported

theorem Accounts.init : Accounts slots 0 (Client.init : Client E H N) where
  errors := rfl
  calls  := by
    have hnone : (Client.init : Client E H N).outstanding = 0 := Family.total_eq_zero (fun _ => rfl)
    rw [hnone]
    rfl

variable {dropped : Multiset (HandlerCall E H)}

/-- **A thread moves**: it makes the calls `made`, and the calls `lost` are prevented; the errors `infos` are
    reported. -/
theorem Accounts.goTo (h : s.Accounts slots dropped) {pos : DrainPos E H} (made lost : List (HandlerCall E H))
    (infos : List (ConnectErrorInfo E H)) (hthreads : s'.threads = (s.goTo t pos).threads)
    (hcalled : s'.called = s.called ++ made) (hreported : s'.reported = s.reported ++ infos)
    (herrors : s'.reported ++ s'.connErrors = s'.registered)
    (hcalls : (made + pos.owed + lost : Multiset (HandlerCall E H)) = (s.threads t).owed + callsOf slots infos) :
    s'.Accounts slots (dropped + (lost : Multiset (HandlerCall E H))) := by
  refine ⟨herrors, ?_⟩
  have htotal : s'.outstanding + (s.threads t).owed = s.outstanding + pos.owed := by
    rw [outstanding, hthreads]
    exact Family.total_update _ s.threads t pos
  have hsplit : callsOf slots s'.reported = callsOf slots s.reported + callsOf slots infos := by
    rw [hreported, callsOf, List.flatMap_append]
    rfl
  rw [hsplit, ← h.calls, hcalled, ← Multiset.coe_add]
  -- the old calls of the thread are cancelled
  apply add_right_cancel (b := ((s.threads t).owed : Multiset (HandlerCall E H)))
  calc ↑s.called + ↑made + s'.outstanding + (dropped + ↑lost) + ↑(s.threads t).owed
      = ↑s.called + ↑made + dropped + ↑lost + (s'.outstanding + ↑(s.threads t).owed) := by abel
    _ = ↑s.called + s.outstanding + dropped + (↑made + ↑pos.owed + ↑lost) := by rw [htotal]; abel
    _ = ↑s.called + s.outstanding + dropped + callsOf slots infos + ↑(s.threads t).owed := by rw [hcalls]; abel

/-- Every step of a client with one thread taking keeps the accounts. -/
theorem Accounts.move (h : s.Accounts slots dropped) (hsole : s.Sole) (hmove : Move slots s a s') :
    s'.Accounts slots (dropped + (s.drops a : Multiset (HandlerCall E H))) := by
  cases hmove with
  | register info error errors =>
      refine ⟨?_, ?_⟩
      · show s.reported ++ (s.connErrors ++ errors) = s.registered ++ errors
        rw [← List.append_assoc, h.errors]
      · have hkeep : dropped + (s.drops (.connectHandler info error) : Multiset (HandlerCall E H)) = dropped :=
          add_zero dropped
        rw [hkeep]
        exact h.calls
  | turn t pos hdrops hfrom hpos =>
      rw [hdrops]
      refine h.goTo [] [] [] rfl (List.append_nil _).symm (List.append_nil _).symm h.errors ?_
      rw [hfrom, hpos.2]
      rfl
  | test t hpos hne =>
      refine h.goTo [] [] [] rfl (List.append_nil _).symm (List.append_nil _).symm h.errors ?_
      rw [hpos]
      rfl
  | copy t info hpos hfront =>
      refine h.goTo [] [] [] rfl (List.append_nil _).symm (List.append_nil _).symm h.errors ?_
      rw [hpos]
      rfl
  | erase t info front errors hpos herrors =>
      -- what is erased is what was copied
      have hfront : front = info := by
        have hhead := hsole.front t info hpos
        rw [herrors] at hhead
        exact Option.some.inj hhead
      subst hfront
      refine h.goTo [] [] [front] rfl (List.append_nil _).symm rfl ?_ ?_
      · show s.reported ++ [front] ++ errors = s.registered
        rw [List.append_assoc, List.singleton_append, ← herrors, h.errors]
      · rw [hpos, DrainPos.owed_callOn, callsOf, List.flatMap_singleton]
        exact add_zero _
  | call t throws info handler rest hpos =>
      cases throws with
      | true =>
          -- the handlers behind this one are not called any more
          refine h.goTo [(handler, info.params)] _ [] rfl rfl (List.append_nil _).symm h.errors ?_
          rw [drops, hpos, if_pos rfl]
          exact (add_zero _).symm
      | false =>
          refine h.goTo [(handler, info.params)] [] [] rfl rfl (List.append_nil _).symm h.errors ?_
          rw [hpos, if_neg Bool.false_ne_true, DrainPos.owed_callOn]
          rfl
  | fail _ t hpos hempty => exact absurd hempty (hsole.filled t hpos)

/-! ## A thread on its own -/

/-- The step belongs to thread `t`, and no handler throws in it. -/
def Act.solo (t : Fin N) : Act E H N → Bool
  | .connectHandler _ _ => false
  | .process u | .test u | .copy u | .erase u => u == t
  | .call u throws => u == t && !throws

/-- Thread `t` on its own leads from `s` to `s'`. -/
def Solo (slots : List H) (t : Fin N) (s s' : Client E H N) : Prop :=
  ∃ as, (∀ b ∈ as, Act.solo t b = true) ∧ Machine.run (step slots) s as = some s'

theorem Solo.refl : Solo slots t s s := ⟨[], fun _ hb => absurd hb List.not_mem_nil, rfl⟩

theorem Solo.cons {s'' : Client E H N} (hstep : step slots s a = some s') (ha : a.solo t = true)
    (h : Solo slots t s' s'') : Solo slots t s s'' := by
  obtain ⟨as, has, hrun⟩ := h
  refine ⟨a :: as, fun b hb => ?_, Machine.run_cons_eq_some.mpr ⟨s', hstep, hrun⟩⟩
  rcases List.mem_cons.mp hb with rfl | hb
  · exact ha
  · exact has b hb

theorem Solo.trans {s'' : Client E H N} (h : Solo slots t s s') (h' : Solo slots t s' s'') :
    Solo slots t s s'' := by
  obtain ⟨as, has, hrun⟩ := h
  obtain ⟨bs, hbs, hrun'⟩ := h'
  refine ⟨as ++ bs, fun b hb => ?_, ?_⟩
  · exact (List.mem_append.mp hb).elim (has b) (hbs b)
  · rw [Machine.run_append, hrun]
    exact hrun'

/-- The other threads stay where they are. -/
theorem step_others (hstep : step slots s a = some s') (ha : a.solo t = true) (u : Fin N) (hut : u ≠ t) :
    s'.threads u = s.threads u := by
  cases a with
  | connectHandler info error => cases ha
  | process v | test v | copy v | erase v =>
      have hvt : v = t := beq_iff_eq.mp ha
      subst hvt
      rw [step] at hstep
      split at hstep <;> cases hstep <;> first | rfl | exact s.goTo_of_ne _ hut
  | call v throws =>
      have hvt : v = t := beq_iff_eq.mp (Bool.and_eq_true_iff.mp ha).1
      subst hvt
      rw [step] at hstep
      split at hstep <;> cases hstep
      exact s.goTo_of_ne _ hut

theorem Solo.others (h : Solo slots t s s') (u : Fin N) (hut : u ≠ t) : s'.threads u = s.threads u := by
  obtain ⟨as, has, hrun⟩ := h
  induction as generalizing s with
  | nil => cases hrun; rfl
  | cons a as ih =>
      obtain ⟨s₁, hstep, hrun⟩ := Machine.run_cons_eq_some.mp hrun
      rw [ih (fun b hb => has b (List.mem_cons_of_mem a hb)) hrun]
      exact step_others hstep (has a List.mem_cons_self) u hut

/-- A thread on its own finds nobody else taking an error, if nobody was. -/
theorem guarded_solo {as : List (Act E H N)} (has : ∀ b ∈ as, Act.solo t b = true)
    (hothers : ∀ u, u ≠ t → (s.threads u).taking = false) :
    Machine.Guarded (step slots) (fun s a => Alone s a ∧ LastThrows s a) s as := by
  induction as generalizing s with
  | nil => exact trivial
  | cons a as ih =>
      have ha := has a List.mem_cons_self
      refine ⟨⟨?_, ?_⟩, fun s' hstep => ih (fun b hb => has b (List.mem_cons_of_mem a hb)) (fun u hut => ?_)⟩
      · cases a with
        | test v =>
            intro _ u huv
            have hvt : v = t := beq_iff_eq.mp ha
            exact hothers u (hvt ▸ huv)
        | connectHandler | process | copy | erase | call => exact trivial
      · cases a with
        | call v throws =>
            have hthrows : throws = false := by
              rw [Act.solo, Bool.and_eq_true_iff, Bool.not_eq_true'] at ha
              exact ha.2
            subst hthrows
            rfl
        | connectHandler | process | test | copy | erase => rfl
      · rw [step_others hstep ha u hut]
        exact hothers u hut

section

variable (slots)

/-- The handlers of one error, if none throws. -/
theorem solo_calls (info : ConnectErrorInfo E H) (handlers : List H) (s : Client E H N)
    (ht : s.threads t = .callOn info handlers) :
    ∃ s', Solo slots t s s' ∧ s'.threads t = .looping ∧ s'.connErrors = s.connErrors := by
  induction handlers generalizing s with
  | nil => exact ⟨s, .refl, ht, rfl⟩
  | cons handler rest ih =>
      have hstep : step slots s (.call t false) = some { s.goTo t (.callOn info rest) with
          called := s.called ++ [(handler, info.params)] } := by
        rw [step, ht]
        rfl
      obtain ⟨s', hsolo, hloop, hkeep⟩ := ih
        { s.goTo t (.callOn info rest) with called := s.called ++ [(handler, info.params)] } (s.goTo_self t _)
      exact ⟨s', .cons hstep (by simp [Act.solo]) hsolo, hloop, hkeep⟩

/-- One turn of the loop, from the copy on. -/
theorem solo_turn {info : ConnectErrorInfo E H} {errors : List (ConnectErrorInfo E H)}
    (ht : s.threads t = .copying) (herrors : s.connErrors = info :: errors) :
    ∃ s', Solo slots t s s' ∧ s'.threads t = .looping ∧ s'.connErrors = errors := by
  have hcopy : step slots s (.copy t) = some (s.goTo t (.erasing info)) := by
    rw [step, ht, herrors]
  have herase : step slots (s.goTo t (.erasing info)) (.erase t)
      = some { (s.goTo t (.erasing info)).goTo t (.callOn info (info.handlers slots)) with
          connErrors := errors
          reported   := s.reported ++ [info] } := by
    have herrors' : (s.goTo t (.erasing info)).connErrors = info :: errors := herrors
    rw [step, goTo_self, herrors']
    rfl
  obtain ⟨s', hsolo, hloop, hkeep⟩ := solo_calls slots info (info.handlers slots)
    { (s.goTo t (.erasing info)).goTo t (.callOn info (info.handlers slots)) with
      connErrors := errors, reported := s.reported ++ [info] } (goTo_self ..)
  exact ⟨s', .cons hcopy (by simp [Act.solo]) (.cons herase (by simp [Act.solo]) hsolo), hloop, hkeep⟩

/-- **A thread on its own drains the collection.** -/
theorem solo_drain (errors : List (ConnectErrorInfo E H)) (s : Client E H N) (ht : s.threads t = .looping)
    (herrors : s.connErrors = errors) :
    ∃ s', Solo slots t s s' ∧ s'.threads t = .looping ∧ s'.connErrors = [] := by
  induction errors generalizing s with
  | nil => exact ⟨s, .refl, ht, herrors⟩
  | cons info errors ih =>
      have htest : step slots s (.test t) = some (s.goTo t .copying) := by
        rw [step, ht, herrors]
        rfl
      obtain ⟨s₁, hturn, hloop, hrest⟩ := solo_turn slots (s.goTo_self t .copying)
        (show (s.goTo t .copying).connErrors = info :: errors from herrors)
      obtain ⟨s', hsolo, hend⟩ := ih s₁ hloop hrest
      exact ⟨s', .cons htest (by simp [Act.solo]) (hturn.trans hsolo), hend⟩

/-- **One `process()` empties the collection** when nobody else is in `process()` and no handler throws. -/
theorem solo_process (hidle : ∀ u, s.threads u = .idle) (t : Fin N) : ∃ s', Solo slots t s s' ∧ s'.AtRest := by
  have hothers : ∀ {s'}, Solo slots t s s' → s'.threads t = .idle → ∀ u, s'.threads u = .idle := by
    intro s' hsolo ht u
    by_cases hut : u = t
    · rw [hut, ht]
    · rw [hsolo.others u hut, hidle u]
  by_cases hempty : s.connErrors = []
  · exact ⟨s, .refl, hidle, hempty⟩
  · have hprocess : step slots s (.process t) = some (s.goTo t .looping) := by
      rw [step, hidle t, if_neg (by rwa [List.isEmpty_iff])]
    obtain ⟨s₁, hdrain, hloop, hrest⟩ := solo_drain slots _ (s.goTo t .looping) (s.goTo_self t _) rfl
    have htest : step slots s₁ (.test t) = some (s₁.goTo t .idle) := by
      rw [step, hloop, hrest]
      rfl
    have hsolo : Solo slots t s (s₁.goTo t .idle) :=
      .cons hprocess (by simp [Act.solo]) (hdrain.trans (.cons htest (by simp [Act.solo]) .refl))
    exact ⟨_, hsolo, hothers hsolo (goTo_self ..), hrest⟩

end

/-! ## Runs -/

/-- Guarded runs keep one thread taking and the accounts; what is dropped stays dropped. -/
theorem sole_run {as : List (Act E H N)} (hguard : Machine.Guarded (step slots) Alone s as)
    (hrun : Machine.run (step slots) s as = some s') (hsole : s.Sole) (hacc : s.Accounts slots dropped) :
    s'.Sole ∧ ∃ d, dropped ≤ d ∧ s'.Accounts slots d := by
  refine Machine.run_guarded_invariant (fun s => s.Sole ∧ ∃ d, dropped ≤ d ∧ s.Accounts slots d) ?_ as s s'
    ⟨hsole, dropped, le_refl _, hacc⟩ hguard hrun
  rintro s a s' ⟨hsole, d, hd, hacc⟩ hok hstep
  have hmove := step_move hstep
  exact ⟨hsole.move hok hmove, _, hd.trans (Multiset.le_add_right d _), hacc.move hsole hmove⟩

/-- When every handler that throws is the last of its error, no call is dropped. -/
theorem accounts_run {as : List (Act E H N)} (hguard : Machine.Guarded (step slots) Alone s as)
    (hlast : Machine.Guarded (step slots) LastThrows s as) (hrun : Machine.run (step slots) s as = some s')
    (hsole : s.Sole) (hacc : s.Accounts slots 0) : s'.Accounts slots 0 := by
  refine (Machine.run_guarded_invariant (fun s => s.Sole ∧ s.Accounts slots 0) ?_ as s s' ⟨hsole, hacc⟩
    (hguard.and hlast) hrun).2
  rintro s a s' ⟨hsole, hacc⟩ ⟨hok, hlast⟩ hstep
  have hmove := step_move hstep
  have hnone : s.drops a = [] := List.isEmpty_iff.mp hlast
  have hacc' := hacc.move hsole hmove
  rw [hnone] at hacc'
  exact ⟨hsole.move hok hmove, hacc'⟩

/-- No handler is called more often than it is due. -/
theorem Accounts.subperm (h : s.Accounts slots dropped) : s.called.Subperm (s.due slots) := by
  have hreported : callsOf slots s.reported ≤ (s.due slots : Multiset (HandlerCall E H)) := by
    rw [due, ← h.errors, List.flatMap_append, ← Multiset.coe_add]
    exact Multiset.le_add_right _ _
  rw [← Multiset.coe_le]
  refine le_trans ?_ hreported
  rw [← h.calls, add_assoc]
  exact Multiset.le_add_right _ _

/-- At rest, what was due was called or dropped. -/
theorem Accounts.atRest (h : s.Accounts slots dropped) (hrest : s.AtRest) :
    (s.called : Multiset (HandlerCall E H)) + dropped = (s.due slots : Multiset (HandlerCall E H)) := by
  have hnone : s.outstanding = 0 := Family.total_eq_zero (fun t => by rw [hrest.threads t]; rfl)
  have hall : s.reported = s.registered := by
    rw [← h.errors, hrest.connErrors, List.append_nil]
  have hcalls := h.calls
  rw [hnone, add_zero, hall] at hcalls
  exact hcalls

/-- **A thread that finds an error while another one is taking one** can go on to empty the collection; the other
    one then meets the empty collection. -/
theorem not_alone_fails (hstep : step slots s a = some s') (hok : ¬ Alone s a) :
    ∃ as s'', Machine.run (step slots) s' as = some s'' ∧ s''.failed = true := by
  cases a with
  | connectHandler | process | copy | erase | call => exact absurd trivial hok
  | test t =>
      obtain ⟨hne, hothers⟩ := Classical.not_imp.mp hok
      obtain ⟨u, hu⟩ := not_forall.mp hothers
      obtain ⟨hut, htaking⟩ := Classical.not_imp.mp hu
      rw [Bool.not_eq_false] at htaking
      obtain ⟨info, errors, herrors⟩ : ∃ info errors, s.connErrors = info :: errors := by
        cases hq : s.connErrors with
        | nil => rw [hq] at hne; cases hne
        | cons info errors => exact ⟨info, errors, rfl⟩
      rw [step] at hstep
      split at hstep
      · next hpos =>
          rw [if_neg (Bool.eq_false_iff.mp hne)] at hstep
          cases hstep
          -- `t` takes this error and then all the others, while `u` stays where it is
          obtain ⟨s₁, hturn, hloop, hrest⟩ := solo_turn slots (s.goTo_self t .copying)
            (show (s.goTo t .copying).connErrors = info :: errors from herrors)
          obtain ⟨s₂, hdrain, -, hempty⟩ := solo_drain slots errors s₁ hloop hrest
          have hsolo := hturn.trans hdrain
          have hu₂ : s₂.threads u = s.threads u := (hsolo.others u hut).trans (s.goTo_of_ne _ hut)
          obtain ⟨as, -, hrun⟩ := hsolo
          have hlast : ∃ b, step slots s₂ b = some { s₂ with failed := true } := by
            cases hpos : s.threads u with
            | idle | looping | calling => rw [hpos] at htaking; cases htaking
            | copying => exact ⟨.copy u, by rw [step, hu₂, hpos, hempty]⟩
            | erasing info => exact ⟨.erase u, by rw [step, hu₂, hpos, hempty]⟩
          obtain ⟨b, hb⟩ := hlast
          refine ⟨as ++ [b], { s₂ with failed := true }, ?_, rfl⟩
          rw [Machine.run_append, hrun]
          exact Machine.run_cons_eq_some.mpr ⟨_, hb, rfl⟩
      · cases hstep

/-- The only thread that runs `process()` is always alone. -/
theorem alone_of_single (s : Client E H 1) (a : Act E H 1) : Alone s a := by
  cases a with
  | test t => exact fun _ u hut => absurd (Subsingleton.elim u t) hut
  | connectHandler | process | copy | erase | call => exact trivial

/-- **Each failed connect is reported exactly once**, for any number of threads and connects and every
    interleaving in which a thread finds an error only while nobody else is taking one: nothing meets an empty
    collection, the errors are reported in the order they were registered, and no handler is called more often than
    it is due. When a handler that throws is always the last of its error, each has been called exactly as often as
    it is due as soon as nobody is in `process()` and the collection is empty; one `process()` leads there. Any
    other test can be followed by a `front()` or `erase` on an empty collection, and after any other exception some
    handler is never called. -/
theorem connect_errors_reported_once (slots : List H) (as : List (Act E H N)) (s : Client E H N)
    (hrun : Machine.run (step slots) init as = some s) (hguard : Machine.Guarded (step slots) Alone init as) :
    (s.failed = false ∧ s.reported ++ s.connErrors = s.registered ∧ s.called.Subperm (s.due slots))
      ∧ (Machine.Guarded (step slots) LastThrows init as → s.AtRest → s.called.Perm (s.due slots))
      ∧ ((∀ u, s.threads u = .idle) → ∀ t, ∃ bs s', (∀ b ∈ bs, b.solo t = true)
          ∧ Machine.Guarded (step slots) (fun s a => Alone s a ∧ LastThrows s a) s bs
          ∧ Machine.run (step slots) s bs = some s' ∧ s'.AtRest)
      ∧ (∀ a s', step slots s a = some s' → ¬ Alone s a →
          ∃ bs s'', Machine.run (step slots) s' bs = some s'' ∧ s''.failed = true)
      ∧ ∀ a s', step slots s a = some s' → Alone s a → ¬ LastThrows s a →
          ∀ bs s'', Machine.Guarded (step slots) Alone s' bs → Machine.run (step slots) s' bs = some s'' →
            s''.AtRest → ¬ s''.called.Perm (s''.due slots) := by
  obtain ⟨hsole, d, -, hacc⟩ := sole_run hguard hrun .init .init
  refine ⟨⟨hsole.failed, hacc.errors, hacc.subperm⟩, fun hlast hrest => ?_, fun hidle t => ?_,
    fun a s' hstep hno => not_alone_fails hstep hno, fun a s' hstep hok hno bs s'' hguard' hrun' hrest hperm => ?_⟩
  · have hall := (accounts_run hguard hlast hrun .init .init).atRest hrest
    rw [add_zero] at hall
    exact Multiset.coe_eq_coe.mp hall
  · obtain ⟨s', ⟨bs, hbs, hrun'⟩, hrest⟩ := solo_process slots hidle t
    exact ⟨bs, s', hbs, guarded_solo hbs (fun u _ => by rw [hidle u]; rfl), hrun', hrest⟩
  · have hmove := step_move hstep
    obtain ⟨-, d', hd, hacc'⟩ := sole_run hguard' hrun' (hsole.move hok hmove) (hacc.move hsole hmove)
    have hall := hacc'.atRest hrest
    rw [← Multiset.coe_eq_coe.mpr hperm] at hall
    -- what was dropped stays dropped
    have hzero : d' = 0 := add_eq_left.mp hall
    have hdrops : (s.drops a : Multiset (HandlerCall E H)) ≤ 0 := by
      rw [← hzero]
      exact (Multiset.le_add_left _ d).trans hd
    have hnil : s.drops a = [] := (Multiset.coe_eq_zero _).mp (Multiset.le_zero.mp hdrops)
    exact hno (List.isEmpty_iff.mpr hnil)

/-- Two failed connects, the second one registered while the first is being taken; two threads; the last handler of
    the first error throws. -/
def twoFailures (t u : Fin N) : List (Act Nat Nat N) :=
  [.connectHandler ⟨1, some 7, 0⟩ 111, .process t, .test t, .copy t, .connectHandler ⟨2, none, 0⟩ 113, .process u,
    .erase t, .test u, .copy u, .erase u, .call t false, .call u false, .call t true, .test u]

/-- The guarantee on that run, `9` being connected to the signal. -/
theorem connect_errors_reported_once_twoFailures : ∃ s : Client Nat Nat 2,
    Machine.run (step [9]) init (twoFailures 0 1) = some s
      ∧ s.called = [(7, ⟨1, 111⟩), (9, ⟨2, 113⟩), (9, ⟨1, 111⟩)]
      ∧ s.failed = false ∧ s.called.Perm (s.due [9]) := by
  refine ⟨_, rfl, rfl, ?_⟩
  have h := @connect_errors_reported_once Nat Nat 2 [9] (twoFailures 0 1) _ rfl (by decide)
  refine ⟨h.1.1, h.2.1 (by decide) ⟨?_, rfl⟩⟩
  intro t
  fin_cases t <;> rfl

/-- Both threads find the first of the errors `infos`, and both take what they find in front. -/
def twoTakers (t u : Fin N) (infos : List (ConnectErrorInfo Nat Nat)) : List (Act Nat Nat N) :=
  infos.map (fun info => .connectHandler info 111)
    ++ [.process t, .process u, .test t, .test u, .copy t, .copy u, .erase t, .erase u]

/-- **Two threads spoil the reports**: both find the same error. Then its handler is called twice and the next error
    is lost; without a next error, the second `erase` meets an empty collection. -/
theorem connect_errors_spoiled :
    (¬ ∀ (slots : List Nat) (as : List (Act Nat Nat 2)) (s : Client Nat Nat 2),
        Machine.run (step slots) init as = some s → s.AtRest → s.called.Perm (s.due slots))
      ∧ ¬ ∀ (slots : List Nat) (as : List (Act Nat Nat 2)) (s : Client Nat Nat 2),
        Machine.run (step slots) init as = some s → s.failed = false := by
  constructor
  · intro hclaim
    have hperm := hclaim [] (twoTakers 0 1 [⟨1, some 7, 0⟩, ⟨2, some 8, 0⟩]
      ++ [.call 0 false, .call 1 false, .test 0, .test 1]) _ rfl ⟨by intro t; fin_cases t <;> rfl, rfl⟩
    exact absurd hperm (by decide)
  · intro hclaim
    have hfailed := hclaim [] (twoTakers 0 1 [⟨1, some 7, 0⟩]) _ rfl
    cases hfailed

end Client

end Unicomm
