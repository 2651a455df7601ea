import Unicomm.Comm.DecoderFactory
import Unicomm.Comm.Defaults
import Unicomm.Facade.HexStr
import Unicomm.Facade.XmlMessage

/-!
# `Facade.ConfigLoader` — a configuration from a file

Models `load_from_complex_xml` of `config_loader.cpp`. The file holds a `complex`: one object for the common settings,
one array with an object for every message. The settings are copied, with a default for most of them; then the messages
are registered one after another.

The first entry for a name is the one that counts (`loadConfig_eq`), and a plain configuration that was written to a
file is loaded as it is, apart from empty answers (`loadFromComplexXml_written`).
-/

namespace Unicomm

open Smart

variable {B : Build} {double M : Type}

/-- What is in the file. `int_type` is `int`. -/
abbrev ConfigData (double : Type) := Complex (XmlNumbers (BitVec 32) double)

namespace ConfigKey

def common : Str := [0x63, 0x6f, 0x6d, 0x6d, 0x6f, 0x6e]
def tcpPort : Str := [0x74, 0x63, 0x70, 0x5f, 0x70, 0x6f, 0x72, 0x74]
def tcpBacklog : Str := [0x74, 0x63, 0x70, 0x5f, 0x62, 0x61, 0x63, 0x6b, 0x6c, 0x6f, 0x67]
def defaultTimeout : Str := [0x64, 0x65, 0x66, 0x61, 0x75, 0x6c, 0x74, 0x5f, 0x74, 0x69, 0x6d, 0x65, 0x6f, 0x75, 0x74]
def defaultPriority : Str :=
  [0x64, 0x65, 0x66, 0x61, 0x75, 0x6c, 0x74, 0x5f, 0x70, 0x72, 0x69, 0x6f, 0x72, 0x69, 0x74, 0x79]
def timeoutsEnabled : Str :=
  [0x74, 0x69, 0x6d, 0x65, 0x6f, 0x75, 0x74, 0x73, 0x5f, 0x65, 0x6e, 0x61, 0x62, 0x6c, 0x65, 0x64]
def messageFormat : Str := [0x6d, 0x65, 0x73, 0x73, 0x61, 0x67, 0x65, 0x5f, 0x66, 0x6f, 0x72, 0x6d, 0x61, 0x74]
def homeDir : Str := [0x68, 0x6f, 0x6d, 0x65, 0x5f, 0x64, 0x69, 0x72]
def dispatcherIdleTout : Str :=
  [0x64, 0x69, 0x73, 0x70, 0x61, 0x74, 0x63, 0x68, 0x65, 0x72, 0x5f, 0x69, 0x64, 0x6c, 0x65, 0x5f, 0x74, 0x6f,
    0x75, 0x74]
def incomingQuantum : Str :=
  [0x69, 0x6e, 0x63, 0x6f, 0x6d, 0x69, 0x6e, 0x67, 0x5f, 0x71, 0x75, 0x61, 0x6e, 0x74, 0x75, 0x6d]
def outgoingQuantum : Str :=
  [0x6f, 0x75, 0x74, 0x67, 0x6f, 0x69, 0x6e, 0x67, 0x5f, 0x71, 0x75, 0x61, 0x6e, 0x74, 0x75, 0x6d]
def useUniqueMessageId : Str :=
  [0x75, 0x73, 0x65, 0x5f, 0x75, 0x6e, 0x69, 0x71, 0x75, 0x65, 0x5f, 0x6d, 0x65, 0x73, 0x73, 0x61, 0x67, 0x65,
    0x5f, 0x69, 0x64]
def useDefaultMessagePriority : Str :=
  [0x75, 0x73, 0x65, 0x5f, 0x64, 0x65, 0x66, 0x61, 0x75, 0x6c, 0x74, 0x5f, 0x6d, 0x65, 0x73, 0x73, 0x61, 0x67,
    0x65, 0x5f, 0x70, 0x72, 0x69, 0x6f, 0x72, 0x69, 0x74, 0x79]
def messages : Str := [0x6d, 0x65, 0x73, 0x73, 0x61, 0x67, 0x65, 0x73]
def messageName : Str := [0x6d, 0x65, 0x73, 0x73, 0x61, 0x67, 0x65, 0x5f, 0x6e, 0x61, 0x6d, 0x65]
def needReply : Str := [0x6e, 0x65, 0x65, 0x64, 0x5f, 0x72, 0x65, 0x70, 0x6c, 0x79]
def timeout : Str := [0x74, 0x69, 0x6d, 0x65, 0x6f, 0x75, 0x74]
def answers : Str := [0x61, 0x6e, 0x73, 0x77, 0x65, 0x72, 0x73]
def priority : Str := [0x70, 0x72, 0x69, 0x6f, 0x72, 0x69, 0x74, 0x79]

end ConfigKey

/-! ## Reading a `complex` -/

namespace Smart.Complex

variable {V : Numbers} (c : Complex V)

/-- `read_default` of a simple type. -/
def readDefault (k : Simple) (name : Str) (defValue : V.Val k) : V.Val k :=
  (SortedMap.get? name (c.simple k)).getD defValue

/-- `read_default` of an array of a simple type. -/
def readDefaultArray (k : Simple) (name : Str) (defValue : List (V.Val k)) : List (V.Val k) :=
  (SortedMap.get? name (c.arrays k)).getD defValue

/-- `get_property` of a complex object. -/
def getComplex (name : Str) : Except DataExc (Complex V) :=
  match SortedMap.get? name c.complexes with
  | some d => .ok d
  | none   => .error (invalidProperty complexTypeName name)

/-- `get_property` of an array of complex objects; the name of the type is that of its items. -/
def getComplexArray (name : Str) : Except DataExc (List (Complex V)) :=
  match SortedMap.get? name c.complexArrays with
  | some ds => .ok ds
  | none    => .error (invalidProperty complexTypeName name)

end Smart.Complex

/-! ## The loader -/

/-- What loading throws: the data, or a text in it, is not as it should be. -/
inductive LoadExc where
  | data (e : DataExc)
  | text (e : Exc)

/-- `config`, with the settings that are loaded. -/
structure LoadedConfig (M : Type) extends ConfigObject where
  setup                     : Setup M
  tcpPort                   : BitVec 16
  tcpBacklog                : BitVec 32
  homeDir                   : Str
  dispatcherIdleTout        : Nat
  incomingQuantum           : Nat
  outgoingQuantum           : Nat
  useUniqueMessageId        : Bool
  useDefaultMessagePriority : Bool

/-- `normalize_path`: a slash behind a path that has none. -/
def normalizePath (s : Str) : Str :=
  match s.getLast? with
  | none   => s
  | some c => if c = 0x5c ∨ c = 0x2f then s else s ++ [0x2f]

/-- `setup_message_format`: a format of its own is set up by the application. -/
def Setup.setupMessageFormat (B : Build) (base : MessageBase M) (s : Setup M) : Setup M :=
  if s.config.messageFormat = binaryMessageFormat then s.setBinaryMessageFormat B base
  else if s.config.messageFormat = xmlMessageFormat then s.setXmlMessageFormat B base
  else s

/-- `process_hex_str_array`. -/
def processHexStrArray (B : Build) (array : List Str) : Except Exc (List Str) := array.mapM (processHexStr B)

variable (B) (base : MessageBase M)

/-- The protocol common settings, of the object `common`. -/
def commonSettings (c : ConfigData double) (tcpPort : BitVec 32) : LoadedConfig M where
  tcpPort                   := tcpPort.setWidth 16
  tcpBacklog                := c.readDefault .int ConfigKey.tcpBacklog (0 : BitVec 32)
  defTout                   := (c.readDefault .uint ConfigKey.defaultTimeout (BitVec.ofNat 32 infiniteTimeout)).toNat
  defPriority               := (c.readDefault .uint ConfigKey.defaultPriority (BitVec.ofNat 32 undefinedPriority)).toNat
  timeoutsEnabled           := c.readDefault .int ConfigKey.timeoutsEnabled (0 : BitVec 32) != (0 : BitVec 32)
  setup                     :=
    ((Setup.create base emptyFactory).messageFormat
      ((SortedMap.get? ConfigKey.messageFormat (c.simple .string)).elim binaryMessageFormat
        Str.text)).setupMessageFormat B base
  homeDir                   := normalizePath (c.readDefault .string ConfigKey.homeDir ([] : Str))
  dispatcherIdleTout        := (c.readDefault .uint ConfigKey.dispatcherIdleTout (50 : BitVec 32)).toNat
  incomingQuantum           := (c.readDefault .uint ConfigKey.incomingQuantum (100 : BitVec 32)).toNat
  outgoingQuantum           := (c.readDefault .uint ConfigKey.outgoingQuantum (100 : BitVec 32)).toNat
  useUniqueMessageId        := c.readDefault .int ConfigKey.useUniqueMessageId (0 : BitVec 32) != (0 : BitVec 32)
  useDefaultMessagePriority :=
    c.readDefault .int ConfigKey.useDefaultMessagePriority (0 : BitVec 32) != (0 : BitVec 32)

namespace LoadedConfig

variable (conf : LoadedConfig M)

/-- `is_binary_message_format` of the format that was loaded. -/
def isBinary : Bool := conf.setup.config.messageFormat == binaryMessageFormat

/-- The name of an entry; in the binary format it is converted. -/
def loadName (m : ConfigData double) : Except LoadExc Str := do
  let name ← (m.getSimple .string ConfigKey.messageName).mapError .data
  if conf.isBinary then (processHexStr B name).mapError .text else .ok name

/-- The answers of an entry, none by default; in the binary format they are converted. -/
def loadAnswers (m : ConfigData double) : Except LoadExc (List Str) :=
  if conf.isBinary then (processHexStrArray B (m.readDefaultArray .string ConfigKey.answers [])).mapError .text
  else .ok (m.readDefaultArray .string ConfigKey.answers [])

/-- The `message_info` of one entry. Which of its texts is converted first is not specified; it is the name here. -/
def messageInfo (m : ConfigData double) : Except LoadExc (Str × MessageInfo) := do
  let name ← conf.loadName B m
  let answers ← conf.loadAnswers B m
  .ok (name, {
    needReply := m.readDefault .int ConfigKey.needReply (0 : BitVec 32) != (0 : BitVec 32)
    timeout   := (m.readDefault .uint ConfigKey.timeout (BitVec.ofNat 32 conf.defTout)).toNat
    answers
    priority  := (m.readDefault .uint ConfigKey.priority (BitVec.ofNat 32 conf.defPriority)).toNat })

/-- `message_info` of the configuration. -/
def register (r : Str × MessageInfo) : LoadedConfig M :=
  { conf with toConfigObject := conf.toConfigObject.set (.messageInfo r.1 r.2) }

/-- The body of the loop over the messages. -/
def loadMessage (m : ConfigData double) : Except LoadExc (LoadedConfig M) := do
  let r ← conf.messageInfo B m
  .ok (conf.register r)

end LoadedConfig

/-- `load_from_complex_xml`, from the moment the file was read. -/
def loadConfig (m : ConfigData double) : Except LoadExc (LoadedConfig M) := do
  let c ← (m.getComplex ConfigKey.common).mapError .data
  let tcpPort ← (c.getSimple .uint ConfigKey.tcpPort).mapError .data
  let messages ← (m.getComplexArray ConfigKey.messages).mapError .data
  messages.foldlM (fun conf m => conf.loadMessage B m) (commonSettings B base c tcpPort)

/-- **`load_from_complex_xml`.** A file that exists is what the parser makes of it. -/
def loadFromComplexXml (L : Lexical (XmlNumbers (BitVec 32) double)) (fileName : Str)
    (file : Option (Except DataExc (List Sax))) : Except LoadExc (LoadedConfig M) :=
  match file with
  | none   => .error (.data (.runtimeError ("File or directory doesn't exist [" ++ fileName.text ++ "]")))
  | some r => do
      let l ← r.mapError .data
      let m ← (Handler.unserialize L l).mapError .data
      loadConfig B base m

/-! ## The messages -/

namespace LoadedConfig

variable {B} {conf : LoadedConfig M}

theorem messages_register (r : Str × MessageInfo) (name : Str) :
    (conf.register r).messages name = (conf.messages name).or (if name = r.1 then some r.2 else none) := by
  show (if name = r.1 then (conf.messages r.1).or (some r.2) else conf.messages name) = _
  split
  · next heq => rw [heq]
  · exact Option.or_none.symm

/-- All of them are registered, with what is known of a name already staying. -/
def withMessages (conf : LoadedConfig M) (infos : List (Str × MessageInfo)) : LoadedConfig M :=
  { conf with messages := fun name => (conf.messages name).or (infos.lookup name) }

theorem withMessages_nil : conf.withMessages [] = conf := by
  have hmessages : (fun name => (conf.messages name).or (List.lookup name [])) = conf.messages := by
    funext name
    exact Option.or_none
  unfold withMessages
  rw [hmessages]

theorem withMessages_cons (r : Str × MessageInfo) (infos : List (Str × MessageInfo)) :
    (conf.register r).withMessages infos = conf.withMessages (r :: infos) := by
  have hmessages : (fun name => ((conf.register r).messages name).or (infos.lookup name))
      = fun name => (conf.messages name).or (List.lookup name (r :: infos)) := by
    funext name
    rw [messages_register, Option.or_assoc, List.lookup_cons]
    by_cases hname : name = r.1
    · rw [if_pos hname, beq_iff_eq.mpr hname]
      rfl
    · rw [if_neg hname, beq_eq_false_iff_ne.mpr hname]
      rfl
  unfold withMessages
  rw [hmessages]
  rfl

/-- **The loop.** All entries are looked at in order, and the first one for a name is the one that is registered. -/
theorem loadMessages_eq (ms : List (ConfigData double)) :
    ms.foldlM (fun conf m => conf.loadMessage B m) conf
      = (do
          let infos ← ms.mapM (conf.messageInfo B)
          Except.ok (conf.withMessages infos)) := by
  induction ms generalizing conf with
  | nil =>
      rw [List.mapM_nil]
      exact congrArg Except.ok withMessages_nil.symm
  | cons m ms ih =>
      rw [List.foldlM_cons, List.mapM_cons]
      have hload : conf.loadMessage B m = (conf.messageInfo B m).map conf.register := by
        unfold loadMessage
        cases conf.messageInfo B m <;> rfl
      rw [hload]
      cases conf.messageInfo B m with
      | error e => rfl
      | ok r =>
          show ms.foldlM _ (conf.register r) = _
          rw [ih]
          show (do
            let infos ← ms.mapM (conf.messageInfo B)
            Except.ok ((conf.register r).withMessages infos)) = _
          cases ms.mapM (conf.messageInfo B) with
          | error e => rfl
          | ok infos => exact congrArg Except.ok (withMessages_cons r infos)

end LoadedConfig

variable {B base}

/-- **What is loaded.** There have to be the common settings with the port, and the messages, each with its name; all
    texts have to be well formed. What is known of a name is what its first entry says. -/
theorem loadConfig_eq (m : ConfigData double) :
    loadConfig B base m = (do
      let c ← (m.getComplex ConfigKey.common).mapError .data
      let tcpPort ← (c.getSimple .uint ConfigKey.tcpPort).mapError .data
      let messages ← (m.getComplexArray ConfigKey.messages).mapError .data
      let infos ← messages.mapM ((commonSettings B base c tcpPort).messageInfo B)
      Except.ok { commonSettings B base c tcpPort with messages := fun name => infos.lookup name }) := by
  unfold loadConfig
  simp only [LoadedConfig.loadMessages_eq]
  rfl

/-! ## Through the file -/

section Mapped

variable {α β γ ε : Type} {f : α → Except ε β}

/-- Items that are dropped before or after a pass, if the pass only drops their like. -/
theorem mapM_filter {p : α → Bool} {q : β → Bool} (hdrop : ∀ a, p a = false → ∃ b, f a = .ok b ∧ q b = false)
    (hkeep : ∀ a b, f a = .ok b → p a = true → q b = true) (l : List α) :
    (l.filter p).mapM f = (l.mapM f).map (List.filter q) := by
  induction l with
  | nil => rfl
  | cons a l ih =>
      rw [List.mapM_cons]
      cases hp : p a with
      | true =>
          rw [List.filter_cons_of_pos hp, List.mapM_cons, ih]
          cases hf : f a with
          | error e => rfl
          | ok b =>
              have hq := hkeep a b hf hp
              cases l.mapM f with
              | error e => rfl
              | ok bs => exact congrArg Except.ok (List.filter_cons_of_pos hq).symm
      | false =>
          obtain ⟨b, hf, hq⟩ := hdrop a hp
          have hno : ¬ q b = true := by rw [hq]; exact Bool.false_ne_true
          rw [List.filter_cons_of_neg (by rw [hp]; exact Bool.false_ne_true), ih, hf]
          cases l.mapM f with
          | error e => rfl
          | ok bs => exact congrArg Except.ok (List.filter_cons_of_neg hno).symm

/-- A pass over changed results. -/
theorem mapM_map_result (g : β → γ) (l : List α) : l.mapM (fun a => (f a).map g) = (l.mapM f).map (List.map g) := by
  induction l with
  | nil => rfl
  | cons a l ih =>
      rw [List.mapM_cons, List.mapM_cons, ih]
      cases f a with
      | error e => rfl
      | ok b => cases l.mapM f <;> rfl

end Mapped

theorem processHexStr_nil : processHexStr B [] = .ok [] := processHexStr_open rfl

/-- A text that is not empty is not converted to the empty one. -/
theorem processHexStr_ne_nil {s t : Str} (h : processHexStr B s = .ok t) (hs : s ≠ []) : t ≠ [] := by
  induction s using processHexStr.induct B with
  | case1 s hfind =>
      rw [processHexStr_open hfind] at h
      cases h
      exact hs
  | case2 s pos hfind e hstep =>
      rw [processHexStr_throws hfind hstep] at h
      cases h
  | case3 s pos hfind s' hstep _ ih =>
      rw [processHexStr_converts hfind hstep] at h
      obtain ⟨b, -, rfl⟩ := hexStep_eq_ok.mp hstep
      -- the byte is there now
      exact ih h (List.append_ne_nil_of_right_ne_nil _ (List.cons_ne_nil b _))

/-- The texts that are not empty. -/
def nonEmpty (texts : List Str) : List Str := texts.filter (fun s => s ≠ [])

theorem processHexStrArray_nonEmpty (array : List Str) :
    processHexStrArray B (nonEmpty array) = (processHexStrArray B array).map nonEmpty := by
  apply mapM_filter
  · intro s hs
    have hnil : s = [] := Decidable.not_not.mp (of_decide_eq_false hs)
    subst hnil
    exact ⟨[], processHexStr_nil, rfl⟩
  · intro s t ht hs
    exact decide_eq_true (processHexStr_ne_nil ht (of_decide_eq_true hs))

namespace LoadedConfig

/-- What is left of an entry. -/
def nonEmptyAnswers (info : MessageInfo) : MessageInfo := { info with answers := nonEmpty info.answers }

/-- What is left of a configuration. -/
def withoutEmptyAnswers (conf : LoadedConfig M) : LoadedConfig M :=
  { conf with messages := fun name => (conf.messages name).map nonEmptyAnswers }

theorem loadName_restored (conf : LoadedConfig M) (name : Str) (m : ConfigData double) :
    conf.loadName B (m.restored name) = conf.loadName B m := by
  unfold loadName Complex.getSimple
  rw [Complex.get?_simple_restored (by decide)]

theorem loadAnswers_restored (conf : LoadedConfig M) (name : Str) (m : ConfigData double) :
    conf.loadAnswers B (m.restored name) = (conf.loadAnswers B m).map nonEmpty := by
  have hanswers : (m.restored name).readDefaultArray .string ConfigKey.answers []
      = nonEmpty (m.readDefaultArray .string ConfigKey.answers []) := by
    unfold Complex.readDefaultArray
    rw [Complex.get?_arrays_restored]
    cases SortedMap.get? ConfigKey.answers (m.arrays .string) <;> rfl
  unfold loadAnswers
  rw [hanswers]
  split
  · rw [processHexStrArray_nonEmpty]
    cases processHexStrArray B (m.readDefaultArray .string ConfigKey.answers []) <;> rfl
  · rfl

/-- An entry from the file. -/
theorem messageInfo_restored (conf : LoadedConfig M) (name : Str) (m : ConfigData double) :
    conf.messageInfo B (m.restored name) = (conf.messageInfo B m).map (Prod.map id nonEmptyAnswers) := by
  unfold messageInfo
  rw [loadName_restored, loadAnswers_restored]
  unfold Complex.readDefault
  rw [Complex.get?_simple_restored (by decide), Complex.get?_simple_restored (by decide),
    Complex.get?_simple_restored (by decide)]
  cases conf.loadName B m with
  | error e => rfl
  | ok name => cases conf.loadAnswers B m <;> rfl

end LoadedConfig

/-- The common settings from the file. -/
theorem commonSettings_restored (name : Str) (c : ConfigData double) (tcpPort : BitVec 32) :
    commonSettings B base (c.restored name) tcpPort = commonSettings B base c tcpPort := by
  have hsimple : ∀ {n : Str}, n ≠ nameProperty → ∀ k, SortedMap.get? n ((c.restored name).simple k)
      = SortedMap.get? n (c.simple k) := fun h k => Complex.get?_simple_restored h name c k
  unfold commonSettings Complex.readDefault
  simp (disch := decide) only [hsimple]

/-- The first entry for a name, changed. -/
theorem lookup_map_snd {α β γ : Type} [BEq α] (g : β → γ) (a : α) (l : List (α × β)) :
    (l.map (Prod.map id g)).lookup a = (l.lookup a).map g := by
  induction l with
  | nil => rfl
  | cons e l ih =>
      rw [List.map_cons, List.lookup_cons, List.lookup_cons, ih]
      show (match a == e.1 with | true => some (g e.2) | false => _) = _
      cases a == e.1 <;> rfl

theorem messageInfos_restored (conf : LoadedConfig M) (ms : List (ConfigData double)) :
    (ms.map (fun m => m.restored m.getSafeName)).mapM (conf.messageInfo B)
      = (ms.mapM (conf.messageInfo B)).map (List.map (Prod.map id LoadedConfig.nonEmptyAnswers)) := by
  rw [List.mapM_map, ← mapM_map_result]
  congr 1
  funext m
  exact conf.messageInfo_restored m.getSafeName m

/-- **What is loaded of an object that arrives**: the same, without the empty answers. -/
theorem loadConfig_restored (name : Str) (m : ConfigData double) :
    loadConfig B base (m.restored name) = (loadConfig B base m).map LoadedConfig.withoutEmptyAnswers := by
  rw [loadConfig_eq, loadConfig_eq]
  unfold Complex.getComplex Complex.getComplexArray
  rw [Complex.get?_complexes_restored, Complex.get?_complexArrays_restored]
  cases SortedMap.get? ConfigKey.common m.complexes with
  | none => rfl
  | some c =>
      show (do
        let tcpPort ← ((c.restored ConfigKey.common).getSimple .uint ConfigKey.tcpPort).mapError LoadExc.data
        _) = Except.map _ (do
          let tcpPort ← (c.getSimple .uint ConfigKey.tcpPort).mapError LoadExc.data
          _)
      -- a number arrives under every name but that of the name itself
      unfold Complex.getSimple
      rw [Complex.get?_simple_restored (by decide)]
      cases SortedMap.get? ConfigKey.tcpPort (c.simple .uint) with
      | none => rfl
      | some tcpPort =>
          cases SortedMap.get? ConfigKey.messages m.complexArrays with
          | none => rfl
          | some ms =>
              show (do
                let infos ← (ms.map (fun m => m.restored m.getSafeName)).mapM
                  ((commonSettings B base (c.restored ConfigKey.common) tcpPort).messageInfo B)
                Except.ok _) = Except.map _ (do
                  let infos ← ms.mapM ((commonSettings B base c tcpPort).messageInfo B)
                  Except.ok _)
              rw [commonSettings_restored, messageInfos_restored]
              cases ms.mapM ((commonSettings B base c tcpPort).messageInfo B) with
              | error e => rfl
              | ok infos =>
                  -- the answers of each message lose their empty texts, and nothing else
                  have hlookup : (fun name => (infos.map (Prod.map id LoadedConfig.nonEmptyAnswers)).lookup name)
                      = fun name => (infos.lookup name).map LoadedConfig.nonEmptyAnswers := by
                    funext name
                    exact lookup_map_snd _ name infos
                  exact congrArg (fun f => Except.ok { commonSettings B base c tcpPort with messages := f }) hlookup

/-- Nothing is missing if no answer was empty. -/
theorem LoadedConfig.withoutEmptyAnswers_eq_iff (conf : LoadedConfig M) :
    conf.withoutEmptyAnswers = conf ↔ ∀ name info, conf.messages name = some info → [] ∉ info.answers := by
  constructor
  · intro heq name info hinfo hmem
    have hmessages := congrArg (fun conf => conf.messages name) heq
    change (conf.messages name).map nonEmptyAnswers = conf.messages name at hmessages
    rw [hinfo] at hmessages
    have hanswers := congrArg MessageInfo.answers (Option.some.inj hmessages)
    rw [← hanswers] at hmem
    exact of_decide_eq_true (List.mem_filter.mp hmem).2 rfl
  · intro hno
    have hmessages : (fun name => (conf.messages name).map nonEmptyAnswers) = conf.messages := by
      funext name
      cases hinfo : conf.messages name with
      | none => rfl
      | some info =>
          have hall : nonEmpty info.answers = info.answers :=
            List.filter_eq_self.mpr (fun s hs => decide_eq_true (fun hnil => hno name info hinfo (hnil ▸ hs)))
          show some { info with answers := nonEmpty info.answers } = some info
          rw [hall]
    unfold withoutEmptyAnswers
    rw [hmessages]

/-- The configuration that arrives is loaded as the object itself is, apart from empty answers. -/
theorem loadFromComplexXml_restored (base : MessageBase M) {L : Lexical (XmlNumbers (BitVec 32) double)}
    {m : ConfigData double} {name : Str} {l : List Sax} (fileName : Str)
    (hread : Handler.unserialize L l = .ok (m.restored name)) :
    loadFromComplexXml B base L fileName (some (.ok l))
      = (loadConfig B base m).map LoadedConfig.withoutEmptyAnswers := by
  unfold loadFromComplexXml
  show ((Handler.unserialize L l).mapError LoadExc.data >>= loadConfig B base) = _
  rw [hread, ← loadConfig_restored name m]
  rfl

/-- Nothing is missing if no answer was empty, or the configuration is not loaded at all. -/
theorem map_withoutEmptyAnswers_eq_iff (loaded : Except LoadExc (LoadedConfig M)) :
    loaded.map LoadedConfig.withoutEmptyAnswers = loaded
      ↔ ∀ conf, loaded = .ok conf → ∀ name info, conf.messages name = some info → [] ∉ info.answers := by
  cases loaded with
  | error e => exact iff_of_true rfl (fun conf hconf => by cases hconf)
  | ok conf =>
      constructor
      · intro heq conf' hconf'
        cases hconf'
        exact conf.withoutEmptyAnswers_eq_iff.mp (Except.ok.inj heq)
      · intro hanswers
        exact congrArg Except.ok (conf.withoutEmptyAnswers_eq_iff.mpr (hanswers conf rfl))

/-- **A plain configuration that was written to a file** is loaded as if the object itself were, apart from empty
    answers, as long as the parser reports the text of every item in one piece: the two agree if and only if no message
    has an empty answer. -/
theorem loadFromComplexXml_written (B : Build) (base : MessageBase M)
    {L : Lexical (XmlNumbers (BitVec 32) double)} {X : Xerces} (hX : X.Documented) {m : ConfigData double} {name : Str}
    (fileName : Str) (h : m.WellFormed) (hplain : m.Plain)
    (hname : m.getName = .ok name) :
    ∃ doc, m.document L = .ok doc ∧ X.Gives doc (fun l =>
      loadFromComplexXml B base L fileName (some (.ok l)) = (loadConfig B base m).map LoadedConfig.withoutEmptyAnswers
        ∧ (loadFromComplexXml B base L fileName (some (.ok l)) = loadConfig B base m ↔
            ∀ conf, loadConfig B base m = .ok conf →
              ∀ name info, conf.messages name = some info → [] ∉ info.answers)) := by
  obtain ⟨doc, hdoc, hgives⟩ := Handler.unserialize_document (L := L) hX h hplain hname
  refine ⟨doc, hdoc, hgives.mono (fun l hread => ?_)⟩
  have hload := loadFromComplexXml_restored (B := B) base fileName hread
  exact ⟨hload, by rw [hload, map_withoutEmptyAnswers_eq_iff]⟩

/-- A message `a` whose answers are the empty text and `a`. -/
def askSample : ConfigData (BitVec 32) :=
  (Complex.empty.setSimple .string ConfigKey.messageName Handler.nameA).setArray .string ConfigKey.answers
    [[], Handler.nameA]

/-- The common settings: the port 80. -/
def commonSample : ConfigData (BitVec 32) := Complex.empty.setSimple .uint ConfigKey.tcpPort (80 : BitVec 32)

/-- A configuration of the two. -/
def configSample : ConfigData (BitVec 32) :=
  ((Complex.empty.setName Handler.nameA).setComplex ConfigKey.common commonSample).setComplexArray ConfigKey.messages
    [askSample]

theorem configSample_wellFormed : configSample.WellFormed := by
  have hask : askSample.WellFormed := (Complex.WellFormed.empty.setSimple .string _ _).setArray .string _ _
  refine Complex.WellFormed.setComplexArray
    ((Complex.WellFormed.empty.setSimple .string _ _).setComplex _ (.setSimple .empty .uint _ _)) _ ?_
  intro d hd
  cases List.mem_singleton.mp hd
  exact hask

theorem configSample_plain : configSample.Plain := by
  have hask : askSample.Plain := by
    refine .mk (fun k => ?_) (by decide) (fun k => ?_) (by decide) (fun _ hp => absurd hp List.not_mem_nil)
      (fun _ hp => absurd hp List.not_mem_nil) (fun _ hp => absurd hp List.not_mem_nil)
      (fun _ hp => absurd hp List.not_mem_nil)
    all_goals cases k <;> decide
  have hcommon : commonSample.Plain :=
    Complex.Plain.empty.setSimple (k := .uint) Handler.decimal (by decide) (Handler.decimal.print_plain (by decide) _)
  refine .mk (fun k => ?_) (by decide) (fun _ _ hp => absurd hp List.not_mem_nil)
    (fun _ hp => absurd hp List.not_mem_nil) (fun p hp => ?_) (fun p hp => ?_) (fun p hp => ?_) (fun p hp c hc => ?_)
  · cases k <;> decide
  · cases List.mem_singleton.mp hp
    decide
  · cases List.mem_singleton.mp hp
    decide
  · exact List.mem_singleton.mp hp ▸ hcommon
  · cases List.mem_singleton.mp hp
    exact List.mem_singleton.mp hc ▸ hask

/-- Messages without content. -/
def emptyMessages : MessageBase Unit where
  name _          := []
  serialize _     := .ok []
  unserialize _ _ := .ok ()
  xmlName         := .ok

/-- The two answers are there when the object itself is loaded. -/
theorem loadConfig_configSample (base : MessageBase Unit) :
    ∃ conf, loadConfig .lp64 base configSample = .ok conf
      ∧ conf.messages Handler.nameA = some { answers := [[], Handler.nameA] } := by
  have hplain : processHexStr .lp64 Handler.nameA = .ok Handler.nameA := processHexStr_open rfl
  have hinfo : (commonSettings .lp64 base commonSample 80).messageInfo .lp64 askSample
      = .ok (Handler.nameA, { answers := [[], Handler.nameA] }) := by
    have hname : (commonSettings .lp64 base commonSample 80).loadName .lp64 askSample = .ok Handler.nameA := by
      show (processHexStr .lp64 Handler.nameA).mapError LoadExc.text = _
      rw [hplain]
      rfl
    have hanswers : (commonSettings .lp64 base commonSample 80).loadAnswers .lp64 askSample
        = .ok [[], Handler.nameA] := by
      show ([[], Handler.nameA].mapM (processHexStr .lp64)).mapError LoadExc.text = _
      rw [List.mapM_cons, List.mapM_cons, processHexStr_nil, hplain]
      rfl
    unfold LoadedConfig.messageInfo
    rw [hname, hanswers]
    rfl
  let infos : List (Str × MessageInfo) := [(Handler.nameA, { answers := [[], Handler.nameA] })]
  refine ⟨{ commonSettings .lp64 base commonSample 80 with messages := fun name => infos.lookup name }, ?_, rfl⟩
  rw [loadConfig_eq]
  show (do
    let infos ← [askSample].mapM ((commonSettings .lp64 base commonSample 80).messageInfo .lp64)
    Except.ok _) = _
  rw [List.mapM_cons, hinfo]
  rfl

/-- Of the two answers one is left. -/
theorem loadFromComplexXml_written_sample : ∃ doc l, configSample.document Handler.decimal = .ok doc
    ∧ Xerces.any.reports doc (.ok l)
    ∧ loadFromComplexXml .lp64 emptyMessages Handler.decimal Handler.nameA (some (.ok l))
        ≠ loadConfig .lp64 emptyMessages configSample := by
  have hname : configSample.getName = .ok Handler.nameA := rfl
  obtain ⟨doc, hdoc, hgives⟩ := loadFromComplexXml_written .lp64 emptyMessages (L := Handler.decimal)
    Xerces.any_documented Handler.nameA configSample_wellFormed configSample_plain hname
  obtain ⟨doc', hdoc', hplain, -⟩ := configSample_plain.document (L := Handler.decimal) hname
  cases hdoc.symm.trans hdoc'
  have hreport : Xerces.any.reports doc (.ok (doc.events ++ [])) := ⟨_, rfl, reported_events _ hplain .nil⟩
  refine ⟨doc, _, hdoc, hreport, fun hsame => ?_⟩
  obtain ⟨conf, hload, hask⟩ := loadConfig_configSample emptyMessages
  have hno := (hgives.of_reports hreport (reported_events _ hplain .nil)).2.mp hsame
  exact hno conf hload Handler.nameA _ hask List.mem_cons_self

end Unicomm
