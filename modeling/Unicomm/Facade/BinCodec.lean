import Unicomm.Core.MessageDecoderBase
import Unicomm.Facade.BinMessage

/-!
# `Facade.BinCodec` — the binary encoder and decoder

Models `bin_message_encoder.cpp` and `bin_message_decoder.cpp`. Both rewrite a string in place while an
iterator walks over it; here the iterator **splits** the string into `done`, what stands before it, and the
rest. Inserting at the iterator and erasing at it are then changes at the split.

`binaryEncode_eq` and `binaryDecode_eq` identify the two loops with the library's `stuff` and `unstuff`.

Behind an escape symbol at the end, `binary_decode` compares `(it = s.erase(it)) == s.end()`. C++ does not say which
operand is evaluated first; the compilers for x86 take `s.end()`, which the erasure then leaves one behind the new
end. So the comparison fails, and the loop goes on outside the string instead of throwing.
-/

namespace Unicomm

variable {B : Build}

/-! ## Encoder -/

/-- The loop of `binary_encode`: a reserved byte is masked, the escape symbol inserted before it, and the
    iterator moved behind both. -/
def binaryEncodeLoop (done : Str) : Str → Str
  | []        => done
  | c :: rest =>
      if isBinEscapeSym c || isBinEndSym c then
        binaryEncodeLoop (done ++ [binEscapeSym, binProcessOne c]) rest
      else
        binaryEncodeLoop (done ++ [c]) rest

/-- `binary_encode`. -/
def binaryEncode (s : Str) : Str := binaryEncodeLoop [] s

/-- `bin_message_encoder::encode_raw_message`: escape, then append the end marker. A result that does not
    fit a string throws. -/
def encodeRawMessage (B : Build) (buffer : Str) : Except Exc Str :=
  let out := binaryEncode buffer ++ [binMessageEnd]
  if out.length ≤ B.maxSize then pure out else throw .lengthError

/-- `bin_message_encoder`. -/
def binMessageEncoder : MessageEncoder (BinMessage B) where
  serialize        := BinMessage.serialize
  encodeRawMessage := encodeRawMessage B

/-! ## Decoder -/

/-- The loop of `binary_decode`: an escape symbol is erased, and the byte that takes its place unmasked. -/
def binaryDecodeLoop (done : Str) : Str → Except Exc Str
  | []     => pure done
  | c :: rest =>
      if isBinEscapeSym c then
        match rest with
        -- compared with the end of before the erasure, so `message_decoder_error` is not thrown
        | []         => throw .undefinedBehavior
        | b :: rest' => binaryDecodeLoop (done ++ [binProcessOne b]) rest'
      else
        binaryDecodeLoop (done ++ [c]) rest

/-- `binary_decode`. -/
def binaryDecode (s : Str) : Except Exc Str := binaryDecodeLoop [] s

/-- `bin_message_decoder::find_raw_message`: everything up to and including the first end marker. -/
def findRawMessage (buffer : Str) : Bounds :=
  match buffer.idxOf? binMessageEnd with
  | some pos => ⟨0, pos + 1⟩
  | none     => ⟨buffer.length, buffer.length⟩

/-- `bin_message_decoder::decode_raw_message`: drop the end marker, then unescape. -/
def decodeRawMessage (rawMessage : Str) : Except Exc Str := binaryDecode rawMessage.dropLast

/-- `bin_message_decoder::get_message_name`. -/
def getMessageName (B : Build) (rawMessage : Str) : Except Exc Str :=
  match rawMessage with
  | version :: length :: flags :: _ => do
      if (version.toSize : SizeT B) ≠ binVersion.toSize then
        throw (.messageDecoderError "Invalid message format [Illegal version]")
      let headLen : SizeT B := length.toSize
      if rawMessage.length < headLen.toNat then
        throw (.messageDecoderError "Invalid message format [Incomplete header received]")
      let nameLen := BinMessage.nameLen headLen flags
      pure ((rawMessage.drop binHeaderMinLen).take nameLen.toNat)
  | _ => throw (.messageDecoderError "Invalid message format [Incomplete header received]")

/-- A message factory that has a fresh message for every name. -/
structure FreshFactory (B : Build) where
  create      : Str → BinMessage B
  name_create : ∀ name, (create name).name = name
  id_create   : ∀ name, (create name).id = undefinedMessageid
  rid_create  : ∀ name, (create name).rid = undefinedMessageid

/-- `bin_message_decoder` with a factory. -/
def binMessageDecoder (factory : Str → Except Exc (BinMessage B)) : MessageDecoder (BinMessage B) where
  findRawMessage   := findRawMessage
  decodeRawMessage := decodeRawMessage
  getMessageName   := getMessageName B
  factory          := factory
  name             := BinMessage.name
  unserialize      := BinMessage.unserialize

/-! ## The loops are `stuff` and `unstuff` -/

theorem reserved_iff (c : Byte) : (isBinEscapeSym c || isBinEndSym c) = true ↔ binStuffing.Special c := by
  simp [isBinEscapeSym, isBinEndSym, Stuffing.Special, binStuffing]

theorem escape_iff (c : Byte) : isBinEscapeSym c = true ↔ c = binStuffing.esc := beq_iff_eq

theorem binaryEncodeLoop_eq (s done : Str) : binaryEncodeLoop done s = done ++ binStuffing.stuff s := by
  induction s generalizing done with
  | nil => rw [binaryEncodeLoop, Stuffing.stuff_nil, List.append_nil]
  | cons c s ih =>
      rw [binaryEncodeLoop]
      by_cases h : binStuffing.Special c
      · rw [if_pos ((reserved_iff c).mpr h), ih, Stuffing.stuff_cons_special _ _ h, List.append_assoc]
        rfl
      · rw [if_neg (fun hr => h ((reserved_iff c).mp hr)), ih, Stuffing.stuff_cons_plain _ _ h,
          List.append_assoc, List.singleton_append]

/-- `binary_encode` stuffs its argument. -/
theorem binaryEncode_eq (s : Str) : binaryEncode s = binStuffing.stuff s := binaryEncodeLoop_eq s []

/-- What the loop of `binary_decode` gives for each result of `unstuff`. -/
def decoded (done : Str) : Option Str → Except Exc Str
  | some t => .ok (done ++ t)
  | none   => .error .undefinedBehavior

theorem decoded_map_cons (done : Str) (c : Byte) (o : Option Str) :
    decoded done (o.map (c :: ·)) = decoded (done ++ [c]) o := by
  cases o with
  | none   => rfl
  | some t => rw [Option.map_some, decoded, decoded, List.append_assoc, List.singleton_append]

theorem binaryDecodeLoop_eq (done s : Str) :
    binaryDecodeLoop done s = decoded done (binStuffing.unstuff s) := by
  induction done, s using binaryDecodeLoop.induct with
  | case1 done => rw [binaryDecodeLoop, Stuffing.unstuff_nil, decoded, List.append_nil]; rfl
  | case2 done c hc =>
      rw [binaryDecodeLoop, if_pos hc, (escape_iff c).mp hc, Stuffing.unstuff_esc_nil]
      rfl
  | case3 done c hc b rest ih =>
      rw [binaryDecodeLoop, if_pos hc, ih, (escape_iff c).mp hc, Stuffing.unstuff_esc_cons, decoded_map_cons]
      rfl
  | case4 done c rest hc ih =>
      have he : c ≠ binStuffing.esc := fun h => hc ((escape_iff c).mpr h)
      rw [binaryDecodeLoop.eq_def]
      simp only [if_neg hc]
      rw [ih, Stuffing.unstuff_cons_plain _ _ he, decoded_map_cons]

/-- `binary_decode` unstuffs its argument, or walks past its end. -/
theorem binaryDecode_eq (s : Str) : binaryDecode s = decoded [] (binStuffing.unstuff s) :=
  binaryDecodeLoop_eq [] s

/-- **Byte stuffing is undone.** -/
theorem binaryDecode_binaryEncode (s : Str) : binaryDecode (binaryEncode s) = .ok s := by
  rw [binaryEncode_eq, binaryDecode_eq, Stuffing.unstuff_stuff]
  rfl

/-! ## What the encoder puts on the wire -/

/-- **A message is encoded as its stuffed layout and the end marker.** -/
theorem performEncode_eq {m : BinMessage B} {out : Str}
    (h : binMessageEncoder.performEncode m = .ok out) :
    m.headLen ≤ 255 ∧ m.layout.length ≤ B.maxSize ∧ out = binStuffing.stuff m.layout ++ [binMessageEnd] := by
  rw [MessageEncoder.performEncode] at h
  rcases hs : binMessageEncoder.serialize m with e | s
  · rw [hs] at h; cases h
  · rw [hs] at h
    obtain ⟨hlen, hfit, rfl⟩ := BinMessage.serialize_eq_ok.mp hs
    change encodeRawMessage B m.layout = .ok out at h
    rw [encodeRawMessage, binaryEncode_eq] at h
    split at h
    · cases h; exact ⟨hlen, hfit, rfl⟩
    · cases h

/-- A message that fits is encoded. -/
theorem performEncode_of_fits {m : BinMessage B} (hlen : m.headLen ≤ 255)
    (hfit : 2 * m.layout.length + 1 ≤ B.maxSize) :
    binMessageEncoder.performEncode m = .ok (binStuffing.stuff m.layout ++ [binMessageEnd]) := by
  have hserialize : binMessageEncoder.serialize m = .ok m.layout :=
    BinMessage.serialize_eq_ok.mpr ⟨hlen, by omega, rfl⟩
  have hraw : (binStuffing.stuff m.layout ++ [binMessageEnd]).length ≤ B.maxSize := by
    rw [List.length_append, List.length_singleton]
    exact Nat.le_trans (Nat.succ_le_succ (binStuffing.length_stuff_le m.layout)) hfit
  rw [MessageEncoder.performEncode, hserialize]
  change encodeRawMessage B m.layout = _
  rw [encodeRawMessage, binaryEncode_eq, if_pos hraw]
  rfl

/-! ## What the decoder makes of one frame -/

/-- The name is read off a layout whose length byte is read right. -/
theorem getMessageName_layout {m : BinMessage B} (h : m.headLen ≤ 127) :
    getMessageName B m.layout = .ok m.name := by
  have hhead := BinMessage.toNat_lengthByte h
  have hle : ¬ m.layout.length < m.headLen := by rw [BinMessage.length_layout]; omega
  have hname := BinMessage.layout_name m
  rw [BinMessage.layout] at hle hname ⊢
  rw [getMessageName]
  simp only [ne_eq, not_true_eq_false, if_false, hhead, hle, BinMessage.toNat_nameLen hhead, hname]
  rfl

/-- **A length byte with its top bit set is read as a negative number**, which no message is long enough
    for. -/
theorem getMessageName_long {m : BinMessage B} (hlong : 128 ≤ m.headLen) (hbyte : m.headLen ≤ 255)
    (hfit : m.layout.length ≤ B.maxSize) :
    getMessageName B m.layout
      = .error (.messageDecoderError "Invalid message format [Incomplete header received]") := by
  have hval : m.lengthByte.toNat = m.headLen := by
    rw [BinMessage.lengthByte, BitVec.toNat_ofNat]; omega
  have hhuge : 2 ^ B.sizeBits - 128 ≤ (m.lengthByte.toSize : SizeT B).toNat :=
    Byte.le_toNat_toSize (by omega)
  have hlt : m.layout.length < (m.lengthByte.toSize : SizeT B).toNat := by
    have hmax : B.maxSize < 2 ^ B.sizeBits - 128 := by
      rw [Build.maxSize]; rcases B.size_width with hb | hb <;> rw [hb] <;> decide
    omega
  rw [BinMessage.layout] at hlt ⊢
  rw [getMessageName]
  simp only [ne_eq, not_true_eq_false, if_false, hlt, if_true]
  rfl

/-- The frame of a message goes through the decoder's two raw steps as its layout does. -/
theorem decodeMessage_frame (factory : Str → Except Exc (BinMessage B)) (m : BinMessage B) :
    (binMessageDecoder factory).decodeMessage (binStuffing.stuff m.layout ++ [binMessageEnd])
      = (getMessageName B m.layout).bind (fun mName => (factory mName).bind (fun message =>
          if mName ≠ message.name then
            .error (.messageDecoderError ("Invalid message received [wanted: " ++ message.name.text
              ++ ", got: " ++ mName.text ++ "]"))
          else message.unserialize m.layout)) := by
  have hraw : decodeRawMessage (binStuffing.stuff m.layout ++ [binMessageEnd]) = .ok m.layout := by
    rw [decodeRawMessage, List.dropLast_concat, ← binaryEncode_eq, binaryDecode_binaryEncode]
  rw [MessageDecoder.decodeMessage]
  simp only [binMessageDecoder, hraw, MessageDecoder.createMessage]
  simp only [bind, Except.bind]
  cases getMessageName B m.layout with
  | error e => rfl
  | ok mName =>
      simp only
      cases factory mName with
      | error e    => rfl
      | ok message => rfl

/-- **A short header comes through**: name, identifiers and tail are those of the message sent. -/
theorem decodeMessage_short (factory : FreshFactory B) {m : BinMessage B} (h : m.headLen ≤ 127) :
    (binMessageDecoder (fun name => .ok (factory.create name))).decodeMessage
        (binStuffing.stuff m.layout ++ [binMessageEnd])
      = .ok { factory.create m.name with id := m.id, rid := m.rid, tail := m.tail } := by
  rw [decodeMessage_frame, getMessageName_layout h]
  simp only [Except.bind, factory.name_create, ne_eq, not_true_eq_false, if_false]
  rw [BinMessage.unserialize_layout h (factory.name_create _) (factory.id_create _) (factory.rid_create _)]
  simp only [factory.name_create]

/-- A long header does not. -/
theorem decodeMessage_long (factory : Str → Except Exc (BinMessage B)) {m : BinMessage B}
    (hlong : 128 ≤ m.headLen) (hbyte : m.headLen ≤ 255) (hfit : m.layout.length ≤ B.maxSize) :
    (binMessageDecoder factory).decodeMessage (binStuffing.stuff m.layout ++ [binMessageEnd])
      = .error (.messageDecoderError "Invalid message format [Incomplete header received]") := by
  rw [decodeMessage_frame, getMessageName_long hlong hbyte hfit]
  rfl

end Unicomm
