import Std.Data.ExtTreeMap
import Unicomm.Comm.Config
import Unicomm.Lib.PriorityQueue

/-!
# `Comm.State` — the data of a communicator

Models the data members of `communicator` (`comm.hpp`) and of the Boost.Asio socket it owns, as far as the
code reads them. Two parts are not in the source. The socket keeps every write operation that was ever
started, with the bytes it has left, and the stream it produced: this is what Asio documents about
`async_write`. And `history` lists what happened to the communicator; **no function reads it**, the theorems
are stated over it.
-/

namespace Unicomm

open Std (ExtTreeMap)

variable {B : Build}

/-- `prepeared_message`: an encoded message waiting to be written. -/
structure PrepearedMessage (B : Build) where
  id        : MessageId B
  name      : Str
  priority  : Nat
  outBuffer : Str
  deriving DecidableEq

/-- `message_timeout_info`: a request that waits for its reply. -/
structure MessageTimeoutInfo where
  name : Str
  tout : Timeout
  deriving DecidableEq, Repr

/-- `sent_message_info`: a message whose write completed successfully. -/
structure SentMessageInfo (B : Build) where
  intMid : MessageId B
  mid    : MessageId B
  name   : Str
  deriving DecidableEq

/-- One `async_write` operation: the internal identifier its completion handler is called with, the buffer it was
    started with, what it has left of it, and whether its completion handler is still to run. -/
structure AsyncWrite (B : Build) where
  intMid  : MessageId B
  buffer  : Str
  rest    : Str
  pending : Bool
  deriving DecidableEq, Repr

/-- `async_write` of a buffer. -/
def AsyncWrite.start (intMid : MessageId B) (buffer : Str) : AsyncWrite B := ⟨intMid, buffer, buffer, true⟩

/-- The socket and the Asio operations on it. -/
structure Socket (B : Build) where
  isOpen : Bool
  /-- Every write ever started, oldest first. -/
  writes : List (AsyncWrite B)
  /-- The bytes put on the wire so far. -/
  stream : Str
  /-- The number of reads that are outstanding. -/
  reads  : Nat
  deriving DecidableEq, Repr

/-- What happens to a communicator. The session events are recorded when the handler is **invoked**, whether
    or not it then throws. -/
inductive Event (B : Build) where
  | drawn (mid : MessageId B)
  | pushed (m : PrepearedMessage B)
  | handed (m : PrepearedMessage B)
  | writeFailed (mid : MessageId B)
  | registered (mid : MessageId B)
  | discarded (rid : MessageId B)
  | sessionCtorThrew
  | connected
  | messageArrived (m : BinMessage B)
  | messageSent (mid : MessageId B)
  | messageTimeout (mid : MessageId B)
  | error
  | afterProcessed
  | disconnected
  deriving DecidableEq

/-- `communicator`. Error codes are numbers, zero standing for no error. -/
structure Comm (B : Build) where
  id              : CommId
  mesid           : MessageId B
  isConnected     : Bool
  justConnected   : Bool
  /-- `_user_session != 0`. -/
  userSession     : Bool
  inBuffer        : Str
  inBufferUpdated : Bool
  prepearedMQueue : List (PrepearedMessage B)
  outBuffers      : ExtTreeMap (MessageId B) (PrepearedMessage B) compare
  sentMessages    : List (SentMessageInfo B)
  mesTimeouts     : ExtTreeMap (MessageId B) MessageTimeoutInfo compare
  /-- `_internal_mid`, which wraps. -/
  internalMid     : MessageId B
  readError       : Nat
  writeError      : Nat
  handshakeError  : Nat
  socket          : Socket B
  /-- The completion of the accept, connect or handshake that announces the connection is to come. -/
  connectPending  : Bool
  /-- `mt_asio_read_handler` is between its append and its store to `_in_buffer_updated`. -/
  inReadHandler   : Bool
  history         : List (Event B)

namespace Comm

/-- A freshly constructed communicator whose socket was just accepted or connected. -/
def create (id : CommId) : Comm B where
  id              := id
  mesid           := undefinedMessageid
  isConnected     := false
  justConnected   := false
  userSession     := false
  inBuffer        := []
  inBufferUpdated := false
  prepearedMQueue := []
  outBuffers      := ∅
  sentMessages    := []
  mesTimeouts     := ∅
  internalMid     := 0
  readError       := 0
  writeError      := 0
  handshakeError  := 0
  socket          := ⟨true, [], [], 0⟩
  connectPending  := true
  inReadHandler   := false
  history         := []

/-- Record events. -/
def log (c : Comm B) (es : List (Event B)) : Comm B := { c with history := c.history ++ es }

end Comm

/-! ## What the history says -/

/-- The message a push put into the outgoing queue. -/
def Event.pushed? : Event B → Option (PrepearedMessage B)
  | .pushed m => some m
  | _         => none

/-- The message `mt_start_write` handed to the socket. -/
def Event.handed? : Event B → Option (PrepearedMessage B)
  | .handed m => some m
  | _         => none

namespace Comm

variable (c : Comm B)

/-- The messages pushed so far, in order. -/
def pushes : List (PrepearedMessage B) := c.history.filterMap Event.pushed?

/-- The messages handed to the socket so far, in order. -/
def handed : List (PrepearedMessage B) := c.history.filterMap Event.handed?

/-- An event that does not count leaves what is counted as it was. -/
theorem filterMap_event {β : Type} {f : Event B → Option β} {c c' : Comm B} {e : Event B}
    (hh : c'.history = c.history ++ [e]) (he : f e = none) : c'.history.filterMap f = c.history.filterMap f := by
  rw [hh, List.filterMap_append, List.filterMap_cons_none he]
  exact List.append_nil _

theorem pushes_log (es : List (Event B)) : (c.log es).pushes = c.pushes ++ es.filterMap Event.pushed? := by
  rw [pushes, log, List.filterMap_append, ← pushes]

theorem handed_log (es : List (Event B)) : (c.log es).handed = c.handed ++ es.filterMap Event.handed? := by
  rw [handed, log, List.filterMap_append, ← handed]

end Comm

end Unicomm
