import Unicomm.Core.Basic

/-!
# `Core.MessageDecoderBase` — the decoding and encoding steps shared by all formats

Models `message_decoder_base.cpp` and `message_encoder_base.cpp`. A `MessageDecoder` collects the virtual
functions a format overrides and the message factory; `performDecode` is the base class's fixed order of
calling them. The raw bytes leave the buffer **before** anything is decoded, so a bad message costs exactly
its own bytes: `performDecode` gives the buffer back in every case.
-/

namespace Unicomm

/-- Positions of a raw message in the buffer: `first` up to, but not including, `last`. -/
structure Bounds where
  first : Nat
  last  : Nat
  deriving DecidableEq, Repr

/-- `message_decoder_base` over messages of type `M`: the functions a format overrides, and the factory. -/
structure MessageDecoder (M : Type) where
  findRawMessage   : Str → Bounds
  decodeRawMessage : Str → Except Exc Str
  getMessageName   : Str → Except Exc Str
  factory          : Str → Except Exc M
  name             : M → Str
  unserialize      : M → Str → Except Exc M

namespace MessageDecoder

variable {M : Type} (d : MessageDecoder M)

/-- `create_message`: ask the factory for a message of the given name. -/
def createMessage (name : Str) : Except Exc M := d.factory name

/-- What `perform_decode` does with the raw message once it is out of the buffer. -/
def decodeMessage (mStr : Str) : Except Exc M := do
  let mStr ← d.decodeRawMessage mStr
  let mName ← d.getMessageName mStr
  let message ← d.createMessage mName
  if mName ≠ d.name message then
    throw (.messageDecoderError ("Invalid message received [wanted: " ++ (d.name message).text
      ++ ", got: " ++ mName.text ++ "]"))
  d.unserialize message mStr

/-- `perform_decode`: take the first raw message out of the buffer and decode it; no message when the
    buffer holds no complete one. The second component is the buffer afterwards. -/
def performDecode (buffer : Str) : Except Exc (Option M) × Str :=
  let bounds := d.findRawMessage buffer
  if bounds.first ≠ bounds.last then
    let mStr := (buffer.take bounds.last).drop bounds.first
    ((d.decodeMessage mStr).map some, buffer.take bounds.first ++ buffer.drop bounds.last)
  else
    (.ok none, buffer)

/-- A raw message is found in the buffer. -/
def Finds (buffer : Str) : Prop := (d.findRawMessage buffer).first ≠ (d.findRawMessage buffer).last

instance (buffer : Str) : Decidable (d.Finds buffer) := inferInstanceAs (Decidable (_ ≠ _))

/-- The bytes of the message found. -/
def foundIn (buffer : Str) : Str :=
  (buffer.take (d.findRawMessage buffer).last).drop (d.findRawMessage buffer).first

variable {d}

/-- What is found is decoded, and leaves the buffer whatever comes of it. -/
theorem performDecode_of_finds {buffer : Str} (h : d.Finds buffer) :
    d.performDecode buffer
      = ((d.decodeMessage (d.foundIn buffer)).map some,
          buffer.take (d.findRawMessage buffer).first ++ buffer.drop (d.findRawMessage buffer).last) :=
  if_pos h

/-- Where nothing is found, nothing happens. -/
theorem performDecode_of_not_finds {buffer : Str} (h : ¬ d.Finds buffer) :
    d.performDecode buffer = (.ok none, buffer) :=
  if_neg h

end MessageDecoder

/-- `message_encoder_base` over messages of type `M`: the message's own `serialize` and the format's
    `encode_raw_message`. -/
structure MessageEncoder (M : Type) where
  serialize        : M → Except Exc Str
  encodeRawMessage : Str → Except Exc Str

/-- `perform_encode`: serialize, then encode the raw bytes. -/
def MessageEncoder.performEncode {M : Type} (e : MessageEncoder M) (message : M) : Except Exc Str := do
  let outBuf ← e.serialize message
  e.encodeRawMessage outBuf

end Unicomm
