import Mathlib.Logic.Function.Basic
import Unicomm.Comm.Config

/-!
# `Comm.Defaults` — what is known about a name nobody registered

`Comm.Config` is one configuration at one moment. Here is the **process**: any number of `config` objects, set and
asked in any order, and the function-local static of `mes_info`. It is built when control first passes it, from the
defaults the object then asked has at that moment, and every object gives it away from then on.

`firstUnknown` finds that lookup in the history. `unknown_default_iff` is the consequence: a lookup of a name that was
never registered gives the asked object's own default exactly when that one happens to have had the same.
-/

namespace Unicomm

/-- `config`, as far as `mes_info` and the lookups on it read it. -/
structure ConfigObject where
  messages        : Str → Option MessageInfo := fun _ => none
  defTout         : Nat := infiniteTimeout
  defPriority     : Nat := undefinedPriority
  timeoutsEnabled : Bool := false

/-- The settings and lookups of a `config`. -/
inductive ConfigOp where
  | defaultTimeout (tout : Nat)
  | defaultPriority (priority : Nat)
  | timeoutsEnabled (enabled : Bool)
  | messageInfo (name : Str) (info : MessageInfo)
  | needReply (mesname : Str)
  | messageTimeout (mesname : Str)
  | messageAnswers (mesname : Str)
  | messagePriority (mesname : Str)

namespace ConfigObject

variable (conf : ConfigObject)

/-- The record `mes_info` makes up for an unknown name. -/
def unknownInfo : MessageInfo where
  needReply := false
  timeout   := conf.defTout
  answers   := []
  priority  := conf.defPriority

/-- The setters. `message_info` inserts into a map, so the first registration of a name stays. -/
def set : ConfigOp → ConfigObject
  | .defaultTimeout tout      => { conf with defTout := tout }
  | .defaultPriority priority => { conf with defPriority := priority }
  | .timeoutsEnabled enabled  => { conf with timeoutsEnabled := enabled }
  | .messageInfo name info    =>
      { conf with messages := fun n => if n = name then (conf.messages name).or (some info) else conf.messages n }
  | _                         => conf

/-- The name an operation looks up with `mes_info`. A timeout is looked up only when timeouts are enabled. -/
def lookup? : ConfigOp → Option Str
  | .needReply mesname | .messageAnswers mesname | .messagePriority mesname => some mesname
  | .messageTimeout mesname => if conf.timeoutsEnabled then some mesname else none
  | _                       => none

end ConfigObject

variable {ι : Type} [DecidableEq ι]

/-- The `config` objects of a process, and the static of `mes_info` once it is built. -/
structure ConfigProcess (ι : Type) where
  configs : ι → ConfigObject
  unknown : Option MessageInfo

namespace ConfigProcess

/-- No object was touched yet. -/
def init : ConfigProcess ι := ⟨fun _ => {}, none⟩

variable (p : ConfigProcess ι) (i : ι)

/-- `mes_info`. -/
def mesInfo (mesname : Str) : MessageInfo × ConfigProcess ι :=
  match (p.configs i).messages mesname with
  | some info => (info, p)
  | none      =>
      match p.unknown with
      | some info => (info, p)
      | none      => ((p.configs i).unknownInfo, { p with unknown := some (p.configs i).unknownInfo })

/-- `need_reply`. -/
def needReply (mesname : Str) : Bool := (p.mesInfo i mesname).1.needReply

/-- `message_timeout`. -/
def messageTimeout (mesname : Str) : Nat :=
  if (p.configs i).timeoutsEnabled then (p.mesInfo i mesname).1.timeout else infiniteTimeout

/-- `message_answers`. -/
def messageAnswers (mesname : Str) : List Str := (p.mesInfo i mesname).1.answers

/-- `message_priority`. -/
def messagePriority (mesname : Str) : Nat := (p.mesInfo i mesname).1.priority

/-- What an operation on object `i` leaves behind. -/
def step (op : ι × ConfigOp) : ConfigProcess ι :=
  match (p.configs op.1).lookup? op.2 with
  | some mesname => (p.mesInfo op.1 mesname).2
  | none         => { p with configs := Function.update p.configs op.1 ((p.configs op.1).set op.2) }

/-- What a sequence of operations leaves behind. -/
def run (p : ConfigProcess ι) (ops : List (ι × ConfigOp)) : ConfigProcess ι := ops.foldl step p

omit [DecidableEq ι] in
/-- **What a communicator sees**: once the static is built, an object is a configuration of `Comm.Config`. -/
theorem mesInfo_eq_config {B : Build} {conf : Config B} (hm : conf.messages = (p.configs i).messages)
    (hu : p.unknown = some conf.unknown) (mesname : Str) : (p.mesInfo i mesname).1 = conf.mesInfo mesname := by
  rw [mesInfo, Config.mesInfo, hm, hu]
  cases (p.configs i).messages mesname <;> rfl

/-! ## Settings and the static, apart -/

variable {p i}

omit [DecidableEq ι] in
/-- A lookup changes no object. -/
@[simp] theorem mesInfo_configs (mesname : Str) : (p.mesInfo i mesname).2.configs = p.configs := by
  rw [mesInfo]
  split
  · rfl
  · split <;> rfl

/-- The objects after an operation: the setter's object is set, a lookup sets nothing. -/
theorem step_configs (op : ι × ConfigOp) :
    (p.step op).configs = Function.update p.configs op.1 ((p.configs op.1).set op.2) := by
  have hset : ∀ mesname, (p.configs op.1).lookup? op.2 = some mesname →
      (p.configs op.1).set op.2 = p.configs op.1 := by
    intro mesname h
    obtain ⟨j, o⟩ := op
    cases o <;> first | rfl | cases h
  rw [step]
  split
  · next mesname h => rw [mesInfo_configs, hset mesname h, Function.update_eq_self]
  · rfl

/-- The record of an operation that builds the static: a lookup of a name its object does not know. -/
def buildsUnknown (configs : ι → ConfigObject) (op : ι × ConfigOp) : Option MessageInfo :=
  match (configs op.1).lookup? op.2 with
  | some mesname => if (configs op.1).messages mesname = none then some (configs op.1).unknownInfo else none
  | none         => none

/-- The static is built by the first operation that needs it, and then stays. -/
theorem step_unknown (op : ι × ConfigOp) : (p.step op).unknown = p.unknown.or (buildsUnknown p.configs op) := by
  rw [step, buildsUnknown]
  cases (p.configs op.1).lookup? op.2 with
  | none         => simp
  | some mesname =>
      simp only
      rw [mesInfo]
      cases hget : (p.configs op.1).messages mesname with
      | some info => simp
      | none      => cases hu : p.unknown <;> simp [hu]

/-- The record of the **first lookup of an unregistered name** of a history, with the defaults its object had then. -/
def firstUnknown (configs : ι → ConfigObject) : List (ι × ConfigOp) → Option MessageInfo
  | []        => none
  | op :: ops =>
      (buildsUnknown configs op).or
        (firstUnknown (Function.update configs op.1 ((configs op.1).set op.2)) ops)

/-- **The static is the record of that lookup.** -/
theorem run_unknown (p : ConfigProcess ι) (ops : List (ι × ConfigOp)) :
    (p.run ops).unknown = p.unknown.or (firstUnknown p.configs ops) := by
  induction ops generalizing p with
  | nil => simp [run, firstUnknown]
  | cons op ops ih =>
      show ((p.step op).run ops).unknown = _
      rw [ih, step_unknown, step_configs, Option.or_assoc]
      rfl

/-! ## Names that were never registered -/

/-- Only a registration makes a name known. -/
theorem set_messages {conf : ConfigObject} {op : ConfigOp} {name : Str} (hno : ∀ info, op ≠ .messageInfo name info)
    (h : conf.messages name = none) : (conf.set op).messages name = none := by
  cases op with
  | messageInfo n info =>
      have hne : name ≠ n := fun he => hno info (he ▸ rfl)
      show (if name = n then _ else conf.messages name) = none
      rw [if_neg hne, h]
  | defaultTimeout _ | defaultPriority _ | timeoutsEnabled _ | needReply _ | messageTimeout _ | messageAnswers _
  | messagePriority _ => exact h

theorem run_messages {ops : List (ι × ConfigOp)} {name : Str} (hno : ∀ info, (i, .messageInfo name info) ∉ ops)
    (h : (p.configs i).messages name = none) : ((p.run ops).configs i).messages name = none := by
  induction ops generalizing p with
  | nil => exact h
  | cons op ops ih =>
      apply ih (fun info hmem => hno info (List.mem_cons_of_mem op hmem))
      rw [step_configs, Function.update_apply]
      split
      · next hi =>
          subst hi
          refine set_messages (fun info he => hno info ?_) h
          rw [← he]
          exact List.mem_cons_self
      · exact h

omit [DecidableEq ι] in
/-- A lookup of an unknown name gives the static, which it may be the first to build. -/
theorem mesInfo_unknown {mesname : Str} (h : (p.configs i).messages mesname = none) :
    (p.mesInfo i mesname).1 = p.unknown.getD (p.configs i).unknownInfo := by
  rw [mesInfo, h]
  cases p.unknown <;> rfl

/-- **When a default is the asked object's own.** After any history, a lookup of a name that was never registered in
    the object gives the object's own current default if and only if no unregistered name was looked up before in
    the process, or the object whose lookup was the first one had the same default then. -/
theorem unknown_default_iff (ops : List (ι × ConfigOp)) (i : ι) (name : Str)
    (hno : ∀ info, (i, .messageInfo name info) ∉ ops) :
    let p := (init : ConfigProcess ι).run ops
    let first := firstUnknown (init : ConfigProcess ι).configs ops
    ((p.configs i).timeoutsEnabled = true →
        (p.messageTimeout i name = (p.configs i).defTout ↔ ∀ info ∈ first, info.timeout = (p.configs i).defTout))
      ∧ (p.messagePriority i name = (p.configs i).defPriority
          ↔ ∀ info ∈ first, info.priority = (p.configs i).defPriority) := by
  intro p first
  have hunknown : (p.configs i).messages name = none := run_messages hno rfl
  have hstatic : p.unknown = first := by
    show ((init : ConfigProcess ι).run ops).unknown = first
    rw [run_unknown]
    rfl
  have hinfo : (p.mesInfo i name).1 = first.getD (p.configs i).unknownInfo := by
    rw [mesInfo_unknown hunknown, hstatic]
  unfold messageTimeout messagePriority
  rw [hinfo]
  refine ⟨fun hen => ?_, ?_⟩
  · rw [if_pos hen]
    cases first <;> simp [ConfigObject.unknownInfo]
  · cases first <;> simp [ConfigObject.unknownInfo]

/-- An object that is set up before anything is looked up. -/
def setUpFirst : List (Bool × ConfigOp) :=
  [(false, .timeoutsEnabled true), (false, .defaultTimeout 1000), (false, .messageTimeout [0x61])]

/-- It gives its own default, now and for other names. -/
theorem unknown_default_iff_setUpFirst :
    let p := (init : ConfigProcess Bool).run setUpFirst
    let first := firstUnknown (init : ConfigProcess Bool).configs setUpFirst
    ((p.configs false).timeoutsEnabled = true →
        (p.messageTimeout false [0x62] = (p.configs false).defTout
          ↔ ∀ info ∈ first, info.timeout = (p.configs false).defTout))
      ∧ (p.messagePriority false [0x62] = (p.configs false).defPriority
          ↔ ∀ info ∈ first, info.priority = (p.configs false).defPriority) :=
  unknown_default_iff setUpFirst false [0x62] (by intro info h; simp [setUpFirst] at h)

/-- **An object gives another object's default away**: the second one is set up after the first one was asked, and a
    lookup on it gives the first one's timeout. -/
theorem default_of_other : ¬ ∀ (ops : List (Bool × ConfigOp)) (i : Bool) (name : Str),
    (∀ info, (i, .messageInfo name info) ∉ ops) →
    let p := (init : ConfigProcess Bool).run ops
    ((p.configs i).timeoutsEnabled = true → p.messageTimeout i name = (p.configs i).defTout)
      ∧ p.messagePriority i name = (p.configs i).defPriority := by
  intro hclaim
  have h := (hclaim (setUpFirst ++ [(true, .timeoutsEnabled true), (true, .defaultTimeout 5000)]) true [0x61]
    (by intro info h; simp [setUpFirst] at h)).1 rfl
  exact absurd h (by decide)

end ConfigProcess

end Unicomm
