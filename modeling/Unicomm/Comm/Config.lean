import Unicomm.Facade.BinCodec

/-!
# `Comm.Config` — the options a communicator reads

Models the part of `config.hpp` and `config.cpp` the communicator depends on. Message meta information is a
lookup by name; names that were never registered share **one** record, a function-local static that is built
on the first such lookup anywhere (`unknown`). A timeout of zero means no timeout.
-/

namespace Unicomm

variable {B : Build}

/-- Infinite timeout value. -/
def infiniteTimeout : Nat := 0

/-- `message_info`: what is known about messages of one name. -/
structure MessageInfo where
  needReply : Bool := false
  timeout   : Nat := infiniteTimeout
  answers   : List Str := []
  priority  : Nat := undefinedPriority
  deriving DecidableEq, Repr

/-- `config`, as far as communicators read it. -/
structure Config (B : Build) where
  messages                  : Str → Option MessageInfo
  unknown                   : MessageInfo
  timeoutsEnabled           : Bool
  useUniqueMessageId        : Bool
  useDefaultMessagePriority : Bool
  hasSessionFactory         : Bool
  messageEncoder            : MessageEncoder (BinMessage B)
  messageDecoder            : MessageDecoder (BinMessage B)

/-- A configuration as its constructor leaves it, with the binary message format set. -/
def Config.binary (factory : Str → Except Exc (BinMessage B)) : Config B where
  messages _                := none
  unknown                   := {}
  timeoutsEnabled           := false
  useUniqueMessageId        := false
  useDefaultMessagePriority := false
  hasSessionFactory         := true
  messageEncoder            := binMessageEncoder
  messageDecoder            := binMessageDecoder factory

/-- A plain binary configuration, its factory making plain messages. -/
def Config.plain : Config .lp64 := .binary (fun name => .ok ⟨name, 0, 0, 0, []⟩)

/-- The same with timeouts and unique message identifiers, every message being one that needs a reply. -/
def Config.asking : Config .lp64 :=
  { Config.plain with
    timeoutsEnabled := true, useUniqueMessageId := true, messages := fun _ => some { needReply := true } }

namespace Config

variable (conf : Config B)

/-- `mes_info`. -/
def mesInfo (mesname : Str) : MessageInfo := (conf.messages mesname).getD conf.unknown

/-- `need_reply`. -/
def needReply (mesname : Str) : Bool := (conf.mesInfo mesname).needReply

/-- `message_timeout`, in milliseconds. -/
def messageTimeout (mesname : Str) : Nat :=
  if conf.timeoutsEnabled then (conf.mesInfo mesname).timeout else infiniteTimeout

/-- `message_timeout_used`. -/
def messageTimeoutUsed (mesname : Str) : Bool := conf.messageTimeout mesname != infiniteTimeout

/-- `message_answers`: the allowed answers list. -/
def messageAnswers (mesname : Str) : List Str := (conf.mesInfo mesname).answers

/-- `message_priority`. -/
def messagePriority (mesname : Str) : Nat := (conf.mesInfo mesname).priority

/-- `is_allowed_reply`: an empty list allows every answer. -/
def isAllowedReply (requestName replyName : Str) : Bool :=
  let allowedAnswers := conf.messageAnswers requestName
  if allowedAnswers.isEmpty then true else allowedAnswers.contains replyName

end Config

/-- `smart::timeout`: started at `start` on a clock that counts microseconds, lasting `timeOut` milliseconds;
    without a `timeOut` it never elapses. -/
structure Timeout where
  start   : Nat
  timeOut : Option Nat
  deriving DecidableEq, Repr

/-- `timeout::elapsed` at clock time `now`: the time is **past** the finish time. -/
def Timeout.elapsed (t : Timeout) (now : Nat) : Bool :=
  match t.timeOut with
  | some d => t.start + 1000 * d < now
  | none   => false

end Unicomm
