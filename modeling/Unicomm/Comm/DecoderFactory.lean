import Unicomm.Comm.Config
import Unicomm.Facade.XmlCodec
import Unicomm.Lib.Machine

/-!
# `Comm.DecoderFactory` — the message settings of a configuration

Models the part of `config.cpp` and `config_loader.cpp` that sets up a message format. The message factory is
held twice: by the configuration, and by its decoder, which is an object the configuration only points to.
`message_factory` writes both copies and the two format functions copy one to the other; `message_decoder`
stores the pointer and leaves the new decoder with the factory it came with.

`Setup` holds the configuration and the decoder objects there are, so that a decoder given to it can be any of
them, and one that was set before can be set again. `usesFactory_iff`: the two copies agree all along a run if
and only if every decoder given to `message_decoder` already had the configuration's factory.
-/

namespace Unicomm

variable {B : Build} {M : Type}

/-- `binary_message_format`. -/
def binaryMessageFormat : String := "binary"

/-- `xml_message_format`. -/
def xmlMessageFormat : String := "xml"

/-- A default-constructed factory: `create` finds no name in it. -/
def emptyFactory : Str → Except Exc M := fun _ => .error .invalidTypeError

/-- The virtual functions of `message_base`, and the regular expression the XML decoder finds a name with. -/
structure MessageBase (M : Type) where
  name        : M → Str
  serialize   : M → Except Exc Str
  unserialize : M → Str → Except Exc M
  xmlName     : Str → Except Exc Str

namespace MessageBase

variable (base : MessageBase M)

/-- `create_binary_decoder`. -/
def createBinaryDecoder (B : Build) : MessageDecoder M where
  findRawMessage   := findRawMessage
  decodeRawMessage := decodeRawMessage
  getMessageName   := getMessageName B
  factory          := emptyFactory
  name             := base.name
  unserialize      := base.unserialize

/-- `create_binary_encoder`. -/
def createBinaryEncoder (B : Build) : MessageEncoder M where
  serialize        := base.serialize
  encodeRawMessage := encodeRawMessage B

/-- `create_xml_decoder`. -/
def createXmlDecoder : MessageDecoder M :=
  ({ getMessageName := base.xmlName, factory := emptyFactory, name := base.name,
     unserialize := base.unserialize } : XmlMessages M).decoder

/-- `create_xml_encoder`. -/
def createXmlEncoder (B : Build) : MessageEncoder M where
  serialize        := base.serialize
  encodeRawMessage := xmlEncodeRawMessage B

/-- `default_message_encoder`: the base class leaves the serialized message as it is. -/
def defaultMessageEncoder : MessageEncoder M where
  serialize        := base.serialize
  encodeRawMessage := fun buffer => .ok buffer

end MessageBase

/-! ## The configuration and the decoders -/

/-- `config`: the fields its message settings write. A decoder is pointed to by its number. -/
structure MessageSettings (M : Type) where
  messageFormat  : String
  messageFactory : Str → Except Exc M
  mesDecoder     : Option Nat
  mesEncoder     : MessageEncoder M

/-- A configuration and the decoder objects there are. The pointer is null or points to one of them. -/
structure Setup (M : Type) where
  config   : MessageSettings M
  decoders : List (MessageDecoder M)
  valid    : ∀ d, config.mesDecoder = some d → d < decoders.length

namespace Setup

/-- The constructor of `config`: no decoder, the default encoder. -/
def create (base : MessageBase M) (messageFactory : Str → Except Exc M) : Setup M where
  config   := ⟨"", messageFactory, none, base.defaultMessageEncoder⟩
  decoders := []
  valid    := fun _ h => nomatch h

variable (s : Setup M)

/-- The decoder the configuration points to, `config::message_decoder()`. -/
def decoder : Option (MessageDecoder M) := s.config.mesDecoder.bind (fun d => s.decoders[d]?)

/-- A new decoder object; its pointer is the number of decoders so far. -/
def newDecoder (o : MessageDecoder M) : Setup M where
  config   := s.config
  decoders := s.decoders ++ [o]
  valid    := fun d h => by
    rw [List.length_append]
    exact Nat.lt_add_right _ (s.valid d h)

/-- `message_decoder_base::factory`: set the factory of a decoder object. -/
def decoderFactory (d : Nat) (factory : Str → Except Exc M) : Setup M where
  config   := s.config
  decoders := s.decoders.modify d (fun o => { o with factory })
  valid    := fun d' h => by
    rw [List.length_modify]
    exact s.valid d' h

/-- `config::message_format`. -/
def messageFormat (format : String) : Setup M :=
  { s with config := { s.config with messageFormat := format } }

/-- `config::message_factory`: the decoder, if there is one, gets the factory too. -/
def messageFactory (factory : Str → Except Exc M) : Setup M :=
  let s : Setup M := { s with config := { s.config with messageFactory := factory } }
  match s.config.mesDecoder with
  | some d => s.decoderFactory d s.config.messageFactory
  | none   => s

/-- `config::message_decoder`: store the pointer. -/
def messageDecoder (decoder : Option Nat) (h : ∀ d, decoder = some d → d < s.decoders.length) : Setup M where
  config   := { s.config with mesDecoder := decoder }
  decoders := s.decoders
  valid    := h

/-- `config::message_encoder`. -/
def messageEncoder (encoder : MessageEncoder M) : Setup M :=
  { s with config := { s.config with mesEncoder := encoder } }

theorem lt_newDecoder (o : MessageDecoder M) (factory : Str → Except Exc M) :
    ∀ d, some s.decoders.length = some d →
      d < ((s.newDecoder o).decoderFactory s.decoders.length factory).decoders.length := by
  intro d hd
  obtain rfl := Option.some.inj hd
  simp [decoderFactory, newDecoder]

/-- What the two format functions do: create a decoder, give it the configuration's factory, and set it and the
    encoder. -/
def setMessageFormat (format : String) (decoder : MessageDecoder M) (encoder : MessageEncoder M) : Setup M :=
  let s := s.messageFormat format
  (((s.newDecoder decoder).decoderFactory s.decoders.length s.config.messageFactory).messageDecoder
    (some s.decoders.length) (s.lt_newDecoder decoder s.config.messageFactory)).messageEncoder encoder

/-- `set_binary_message_format`. -/
def setBinaryMessageFormat (B : Build) (base : MessageBase M) : Setup M :=
  s.setMessageFormat binaryMessageFormat (base.createBinaryDecoder B) (base.createBinaryEncoder B)

/-- `set_xml_message_format`. -/
def setXmlMessageFormat (B : Build) (base : MessageBase M) : Setup M :=
  s.setMessageFormat xmlMessageFormat base.createXmlDecoder (base.createXmlEncoder B)

/-! ## What the settings do to the decoder -/

variable {s}

/-- A new object is not the one the configuration points to. -/
theorem decoder_newDecoder (o : MessageDecoder M) : (s.newDecoder o).decoder = s.decoder := by
  unfold decoder newDecoder
  cases hd : s.config.mesDecoder with
  | none => rfl
  | some d => exact List.getElem?_append_left (s.valid d hd)

/-- `message_factory` gives the decoder its factory. -/
theorem decoder_messageFactory (factory : Str → Except Exc M) :
    (s.messageFactory factory).decoder = s.decoder.map (fun o => { o with factory }) := by
  unfold messageFactory decoder
  cases hd : s.config.mesDecoder with
  | none => simp [hd]
  | some d => simp [hd, decoderFactory]

theorem config_messageFactory (factory : Str → Except Exc M) :
    (s.messageFactory factory).config.messageFactory = factory := by
  unfold messageFactory
  cases hd : s.config.mesDecoder with
  | none => simp [hd]
  | some d => simp [hd, decoderFactory]

/-- The pointer stored is the decoder from now on. -/
theorem decoder_messageDecoder (decoder : Option Nat) (h : ∀ d, decoder = some d → d < s.decoders.length) :
    (s.messageDecoder decoder h).decoder = decoder.bind (fun d => s.decoders[d]?) := rfl

/-- A format function sets the decoder it creates, with the configuration's factory. -/
theorem decoder_setMessageFormat (format : String) (decoder : MessageDecoder M) (encoder : MessageEncoder M) :
    (s.setMessageFormat format decoder encoder).decoder
      = some { decoder with factory := s.config.messageFactory } := by
  simp [setMessageFormat, messageEncoder, messageDecoder, decoderFactory, newDecoder, messageFormat,
    Setup.decoder]

end Setup

/-! ## Runs -/

/-- The settings of a configuration, and the making of a decoder that can be given to it. -/
inductive Setting (M : Type) where
  | newDecoder (decoder : MessageDecoder M)
  | messageFactory (factory : Str → Except Exc M)
  | messageDecoder (decoder : Option Nat)
  | messageEncoder (encoder : MessageEncoder M)
  | setBinaryMessageFormat
  | setXmlMessageFormat

/-- The settings that write both copies of the factory. -/
def Setting.WritesBoth : Setting M → Prop
  | .messageFactory _       => True
  | .setBinaryMessageFormat => True
  | .setXmlMessageFormat    => True
  | _                       => False

namespace Setup

/-- One setting. There is no pointer to a decoder that does not exist. -/
def step (B : Build) (base : MessageBase M) (s : Setup M) : Setting M → Option (Setup M)
  | .newDecoder o             => some (s.newDecoder o)
  | .messageFactory factory   => some (s.messageFactory factory)
  | .messageDecoder none      => some (s.messageDecoder none (fun _ h => nomatch h))
  | .messageDecoder (some d)  =>
      if h : d < s.decoders.length then some (s.messageDecoder (some d) (fun _ hd => Option.some.inj hd ▸ h)) else none
  | .messageEncoder encoder   => some (s.messageEncoder encoder)
  | .setBinaryMessageFormat   => some (s.setBinaryMessageFormat B base)
  | .setXmlMessageFormat      => some (s.setXmlMessageFormat B base)

/-- **The decoder uses the configuration's factory**: whenever a decoder is set, its factory is the
    configuration's, so the messages it creates are the ones this factory creates. -/
def UsesFactory (s : Setup M) : Prop :=
  ∀ o, s.decoder = some o →
    o.factory = s.config.messageFactory ∧ ∀ name, o.createMessage name = s.config.messageFactory name

/-- The decoder given to `message_decoder` has the configuration's factory already, or is null. -/
def Fits (s : Setup M) : Setting M → Prop
  | .messageDecoder (some d) => ∀ o, s.decoders[d]? = some o → o.factory = s.config.messageFactory
  | _                        => True

theorem usesFactory_iff_factory {s : Setup M} :
    s.UsesFactory ↔ ∀ o, s.decoder = some o → o.factory = s.config.messageFactory := by
  constructor
  · intro h o ho
    exact (h o ho).1
  · intro h o ho
    exact ⟨h o ho, fun name => by rw [MessageDecoder.createMessage, h o ho]⟩

/-- They make the copies agree, whatever was before. -/
theorem usesFactory_restored (base : MessageBase M) {s s' : Setup M} {a : Setting M}
    (h : step B base s a = some s') (ha : a.WritesBoth) : s'.UsesFactory := by
  have hformat : ∀ format decoder encoder, (s.setMessageFormat format decoder encoder).UsesFactory := by
    intro format decoder encoder
    rw [usesFactory_iff_factory]
    intro o ho
    rw [decoder_setMessageFormat] at ho
    cases ho
    rfl
  cases a with
  | messageFactory factory =>
      cases h
      rw [usesFactory_iff_factory]
      intro o ho
      rw [decoder_messageFactory] at ho
      obtain ⟨o', -, rfl⟩ := Option.map_eq_some_iff.mp ho
      exact (config_messageFactory factory).symm
  | setBinaryMessageFormat =>
      cases h
      exact hformat _ _ _
  | setXmlMessageFormat =>
      cases h
      exact hformat _ _ _
  | newDecoder _ => exact ha.elim
  | messageDecoder _ => exact ha.elim
  | messageEncoder _ => exact ha.elim

/-- **What one setting does**: the two copies agree afterwards, unless `message_decoder` brought another factory. -/
theorem usesFactory_step (base : MessageBase M) (s : Setup M) (a : Setting M) (s' : Setup M)
    (hs : s.UsesFactory) (h : step B base s a = some s') : s'.UsesFactory ↔ s.Fits a := by
  cases a with
  | newDecoder decoder =>
      cases h
      refine iff_of_true (fun o ho => ?_) trivial
      rw [decoder_newDecoder] at ho
      exact hs o ho
  | messageFactory factory => exact iff_of_true (usesFactory_restored base h trivial) trivial
  | messageDecoder decoder =>
      cases decoder with
      | none =>
          cases h
          refine iff_of_true (fun o ho => ?_) trivial
          cases ho
      | some d =>
          by_cases hd : d < s.decoders.length
          · rw [step, dif_pos hd] at h
            cases h
            rw [usesFactory_iff_factory]
            exact Iff.rfl
          · rw [step, dif_neg hd] at h
            cases h
  | messageEncoder encoder =>
      cases h
      exact iff_of_true hs trivial
  | setBinaryMessageFormat => exact iff_of_true (usesFactory_restored base h trivial) trivial
  | setXmlMessageFormat => exact iff_of_true (usesFactory_restored base h trivial) trivial

/-- A setting that cannot be made is not held against a run. -/
theorem fits_of_stuck (base : MessageBase M) (s : Setup M) (a : Setting M) (h : step B base s a = none) :
    s.Fits a := by
  cases a with
  | messageDecoder decoder =>
      cases decoder with
      | none => cases h
      | some d =>
          have hd : ¬ d < s.decoders.length := by
            intro hd
            rw [step, dif_pos hd] at h
            cases h
          intro o ho
          rw [List.getElem?_eq_none (Nat.le_of_not_lt hd)] at ho
          cases ho
  | _ => exact trivial

/-- **The decoder always uses the configuration's factory** if and only if every decoder given to
    `message_decoder` has it already: for every sequence of settings of a new configuration, the two copies agree
    in each state it goes through exactly when all its settings fit. -/
theorem usesFactory_iff (B : Build) (base : MessageBase M) (factory : Str → Except Exc M)
    (settings : List (Setting M)) :
    (∀ done todo, settings = done ++ todo →
        ∀ s, Machine.run (step B base) (create base factory) done = some s → s.UsesFactory)
      ↔ Machine.Guarded (step B base) Fits (create base factory) settings := by
  have hcreate : (create base factory).UsesFactory := fun o ho => nomatch ho
  exact (Machine.guarded_iff_always (usesFactory_step base) (fits_of_stuck base) settings _ hcreate).symm

end Setup

/-! ## Binary messages -/

/-- `bin_message` as a message class; its name is not looked for in XML. -/
def binMessageBase : MessageBase (BinMessage B) where
  name        := BinMessage.name
  serialize   := BinMessage.serialize
  unserialize := BinMessage.unserialize
  xmlName     := fun _ => .error (.messageDecoderError "The xml message format is invalid, can't find message name")

namespace Setup

/-- `Config.binary` is a configuration after `set_binary_message_format`. -/
theorem setBinaryMessageFormat_config (s : Setup (BinMessage B)) :
    (s.setBinaryMessageFormat B binMessageBase).decoder
        = some (Config.binary s.config.messageFactory).messageDecoder
      ∧ (s.setBinaryMessageFormat B binMessageBase).config.mesEncoder
        = (Config.binary s.config.messageFactory).messageEncoder :=
  ⟨decoder_setMessageFormat _ _ _, rfl⟩

/-- **A decoder given after the factory keeps its own**: the message the configuration's factory makes is not
    found by the decoder. -/
theorem message_decoder_keeps_factory :
    ∃ (settings : List (Setting (BinMessage .lp64))) (s : Setup (BinMessage .lp64)) (o : _),
      Machine.run (step .lp64 binMessageBase) (create binMessageBase emptyFactory) settings = some s
      ∧ s.decoder = some o
      ∧ o.createMessage [0x61] = .error .invalidTypeError
      ∧ s.config.messageFactory [0x61] = .ok ⟨[0x61], 0, 0, 0, []⟩
      ∧ ¬ s.UsesFactory := by
  refine ⟨[.messageFactory (fun name => .ok ⟨name, 0, 0, 0, []⟩),
    .newDecoder (binMessageBase.createBinaryDecoder .lp64), .messageDecoder (some 0)], _, _, rfl, rfl, rfl, rfl, ?_⟩
  intro h
  have hcreate := (h _ rfl).2 [0x61]
  cases hcreate

end Setup

end Unicomm
