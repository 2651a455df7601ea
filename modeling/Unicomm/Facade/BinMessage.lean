import Unicomm.Core.Helper
import Unicomm.Facade.Detail

/-!
# `Facade.BinMessage` — the binary message and its header

Models `bin_message.cpp`. A serialized message is

    version, header length, flags, name, [id], [rid], tail

where the header ends before the tail, its length counts every byte up to there and is stored in **one byte**,
and the two identifiers are present when they are defined. `serialize` writes the length as an unsigned value
up to 255; `unserialize` reads it back through a plain `char`. The tail stands for what subclasses append
after `bin_message::serialize` and read back in `unserialize_tail`.
-/

namespace Unicomm

variable {B : Build}

/-- `bin_message`, together with the bytes its subclass keeps. -/
@[ext] structure BinMessage (B : Build) where
  name     : Str
  id       : MessageId B
  rid      : MessageId B
  priority : Nat
  tail     : Str
  deriving DecidableEq

namespace BinMessage

/-- Whether id exists. -/
def idExists (m : BinMessage B) : Bool := m.id != undefinedMessageid

/-- Whether rid exists. -/
def ridExists (m : BinMessage B) : Bool := m.rid != undefinedMessageid

/-! ## `serialize` -/

/-- `head_len` of `serialize`. -/
def headLen (m : BinMessage B) : Nat :=
  binHeaderMinLen + m.name.length + m.idExists.toNat * B.sizeofULong + m.ridExists.toNat * B.sizeofULong

/-- `static_cast<string::value_type>(head_len)`: the length byte. -/
def lengthByte (m : BinMessage B) : Byte := BitVec.ofNat 8 m.headLen

/-- The flags byte of a message. -/
def flags (m : BinMessage B) : Byte := setRidExists (setIdExists 0 m.idExists) m.ridExists

/-- `bin_message::serialize`: the header. -/
def serializeHeader (m : BinMessage B) : Except Exc Str :=
  -- the largest `unsigned char`
  if m.headLen > 255 then
    throw (.rangeError "Can't serialize [Binary header too big]")
  else
    let s := [binVersion] ++ [m.lengthByte] ++ [m.flags] ++ m.name
    let s := if m.idExists then intToVec s m.id B.sizeofULong else s
    let s := if m.ridExists then intToVec s m.rid B.sizeofULong else s
    pure s

/-- `serialize` of a subclass: the header, then the subclass's bytes. No string is longer than
    `max_size`; what would make it so throws. -/
def serialize (m : BinMessage B) : Except Exc Str := do
  let s ← m.serializeHeader
  if (s ++ m.tail).length ≤ B.maxSize then pure (s ++ m.tail) else throw .lengthError

/-! ## `unserialize` -/

/-- `int_from_vec` on the `sizeof(messageid_type)` bytes from position `first` on. The position is a signed
    iterator offset; nothing in the code keeps it inside the message. -/
def readMessageid (message : Str) (first : Int) : Except Exc (MessageId B) :=
  if 0 ≤ first ∧ first + B.sizeofULong ≤ message.length then
    pure (intFromVec ((message.drop first.toNat).take B.sizeofULong))
  else
    throw .undefinedBehavior

/-- An identifier field is read only when its flag is set; otherwise the message keeps what it has. -/
def readField (present : Bool) (message : Str) (first : Int) (old : MessageId B) :
    Except Exc (MessageId B) :=
  if present then readMessageid message first else pure old

/-- `head_len - bin_header_min_len() - tmp`, in `size_t` arithmetic. -/
def nameLen (headLen : SizeT B) (flags : Byte) : SizeT B :=
  headLen - BitVec.ofNat _ binHeaderMinLen
    - BitVec.ofNat _ ((isIdExists flags).toNat * B.sizeofULong + (isRidExists flags).toNat * B.sizeofULong)

/-- `bin_message::unserialize`, ending in the subclass's `unserialize_tail`. -/
def unserialize (self : BinMessage B) (message : Str) : Except Exc (BinMessage B) :=
  match message with
  | version :: length :: flags :: _ => do
      if (version.toSize : SizeT B) ≠ binVersion.toSize then
        throw (.runtimeError "Invalid message format [Illegal version]")
      let headLen : SizeT B := length.toSize
      if message.length < headLen.toNat then
        throw (.runtimeError "Invalid message format [Incomplete header received]")
      let nameLen := nameLen headLen flags
      let gotName : Str := (message.drop binHeaderMinLen).take nameLen.toNat
      if gotName ≠ self.name then
        throw (.runtimeError ("Message identifier is invalid [wanted: " ++ self.name.text
          ++ ", got: " ++ gotName.text ++ "]"))
      let first : Int := binHeaderMinLen + nameLen.toInt
      let id ← readField (isIdExists flags) message first self.id
      let rid ← readField (isRidExists flags) message
        (first + (isIdExists flags).toNat * B.sizeofULong) self.rid
      pure { self with id, rid, tail := message.drop headLen.toNat }
  | _ => throw (.runtimeError "Invalid message format [Incomplete header received]")

/-! ## The layout of a serialized message -/

/-- The bytes of an identifier field: present when the identifier is defined. -/
def idField (value : MessageId B) : Str :=
  if value != undefinedMessageid then intToVec [] value B.sizeofULong else []

/-- The message as it stands on the wire before stuffing. -/
def layout (m : BinMessage B) : Str :=
  binVersion :: m.lengthByte :: m.flags :: (m.name ++ (idField m.id ++ (idField m.rid ++ m.tail)))

theorem length_idField (value : MessageId B) :
    (idField value).length = (value != undefinedMessageid).toNat * B.sizeofULong := by
  rw [idField]
  split
  · next h => rw [length_intToVec, h]; simp
  · next h => simp [h]

theorem intToVec_append (s : Str) (value : MessageId B) (k : Nat) :
    intToVec s value k = s ++ intToVec [] value k := by
  rw [intToVec_eq, intToVec_eq, List.nil_append]

/-- **`serialize` writes the layout**, and throws exactly when the header does not fit its length byte or
    the whole does not fit a string. -/
theorem serialize_eq_ok {m : BinMessage B} {s : Str} :
    m.serialize = .ok s ↔ m.headLen ≤ 255 ∧ m.layout.length ≤ B.maxSize ∧ s = m.layout := by
  have hbytes : (if m.ridExists then
      intToVec (if m.idExists then
        intToVec ([binVersion] ++ [m.lengthByte] ++ [m.flags] ++ m.name) m.id B.sizeofULong
        else [binVersion] ++ [m.lengthByte] ++ [m.flags] ++ m.name) m.rid B.sizeofULong
      else if m.idExists then
        intToVec ([binVersion] ++ [m.lengthByte] ++ [m.flags] ++ m.name) m.id B.sizeofULong
        else [binVersion] ++ [m.lengthByte] ++ [m.flags] ++ m.name) ++ m.tail = m.layout := by
    rw [layout, idField, idField, ← idExists, ← ridExists]
    cases m.idExists <;> cases m.ridExists <;> simp [intToVec_append (_ :: _)]
  rw [serialize, serializeHeader]
  by_cases hlen : m.headLen > 255
  · rw [if_pos hlen]
    constructor
    · intro h; cases h
    · intro h; omega
  · rw [if_neg hlen]
    simp only [pure_bind, hbytes]
    by_cases hfit : m.layout.length ≤ B.maxSize
    · rw [if_pos hfit]
      constructor
      · intro h; cases h; exact ⟨by omega, hfit, rfl⟩
      · rintro ⟨_, _, rfl⟩; rfl
    · rw [if_neg hfit]
      constructor
      · intro h; cases h
      · rintro ⟨_, h, _⟩; exact absurd h hfit

theorem isIdExists_flags (m : BinMessage B) : isIdExists m.flags = m.idExists := by
  rw [isIdExists, flags, setRidExists, getFlag_setFlag, if_neg (by decide), setIdExists, getFlag_setFlag,
    if_pos rfl]

theorem isRidExists_flags (m : BinMessage B) : isRidExists m.flags = m.ridExists := by
  rw [isRidExists, flags, setRidExists, getFlag_setFlag, if_pos rfl]

/-! ## Reading the layout back -/

/-- The bytes the two identifiers take in the header. -/
theorem headLen_eq (m : BinMessage B) :
    m.headLen = binHeaderMinLen + m.name.length + (idField m.id).length + (idField m.rid).length := by
  rw [headLen, length_idField, length_idField]
  rfl

/-- The header length byte, converted back, is the length as long as its top bit is clear. -/
theorem toNat_lengthByte {m : BinMessage B} (h : m.headLen ≤ 127) :
    (m.lengthByte.toSize : SizeT B).toNat = m.headLen := by
  have hbyte : m.lengthByte.toNat = m.headLen := by
    rw [lengthByte, BitVec.toNat_ofNat]; omega
  rw [Byte.toNat_toSize_of_lt (by omega), hbyte]

/-- `name_len` does not wrap around when the header length covers the identifiers. -/
theorem toNat_nameLen_of_le {headLen : SizeT B} {flags : Byte} {k : Nat}
    (hk : (isIdExists flags).toNat * B.sizeofULong + (isRidExists flags).toNat * B.sizeofULong = k)
    (h : binHeaderMinLen + k ≤ headLen.toNat) :
    (nameLen headLen flags).toNat = headLen.toNat - (binHeaderMinLen + k) := by
  have hlt : headLen.toNat < 2 ^ B.sizeBits := headLen.isLt
  rw [binHeaderMinLen] at h ⊢
  rw [nameLen, hk, binHeaderMinLen]
  have h3 : (BitVec.ofNat B.sizeBits 3).toNat = 3 := by
    rw [BitVec.toNat_ofNat, Nat.mod_eq_of_lt (by omega)]
  have hids : (BitVec.ofNat B.sizeBits k).toNat = k := by
    rw [BitVec.toNat_ofNat, Nat.mod_eq_of_lt (by omega)]
  have hsub : (headLen - BitVec.ofNat B.sizeBits 3).toNat = headLen.toNat - 3 := by
    rw [BitVec.toNat_sub_of_le (by rw [BitVec.le_def, h3]; omega), h3]
  rw [BitVec.toNat_sub_of_le (by rw [BitVec.le_def, hsub, hids]; omega), hsub, hids]
  omega

/-- It is the length of the name when the header length was read right. -/
theorem toNat_nameLen {m : BinMessage B} {headLen : SizeT B} (h : headLen.toNat = m.headLen) :
    (nameLen headLen m.flags).toNat = m.name.length := by
  have hids : (isIdExists m.flags).toNat * B.sizeofULong + (isRidExists m.flags).toNat * B.sizeofULong
      = m.idExists.toNat * B.sizeofULong + m.ridExists.toNat * B.sizeofULong := by
    rw [isIdExists_flags, isRidExists_flags]
  rw [BinMessage.headLen] at h
  rw [toNat_nameLen_of_le hids (by omega)]
  omega

/-- Reading an identifier right behind `before` gives the identifier that stands there. -/
theorem readMessageid_at (before after : Str) (value : MessageId B) :
    readMessageid (before ++ (intToVec [] value B.sizeofULong ++ after)) (before.length : Int)
      = .ok value := by
  have hlen : (intToVec [] value B.sizeofULong).length = B.sizeofULong := by
    rw [length_intToVec, List.length_nil, Nat.zero_add]
  have hin : 0 ≤ (before.length : Int) ∧ (before.length : Int) + B.sizeofULong
      ≤ (before ++ (intToVec [] value B.sizeofULong ++ after)).length := by
    simp only [List.length_append, hlen]; omega
  rw [readMessageid, if_pos hin, Int.toNat_natCast, List.drop_left, List.take_left' hlen, intToVec_eq,
    List.nil_append, intFromVec_bytes]
  rfl

theorem length_layout (m : BinMessage B) : m.layout.length = m.headLen + m.tail.length := by
  simp only [layout, List.length_cons, List.length_append, headLen_eq m, binHeaderMinLen]; omega

/-- The name stands behind the first three bytes. -/
theorem layout_name (m : BinMessage B) : (m.layout.drop binHeaderMinLen).take m.name.length = m.name := by
  simp [layout, binHeaderMinLen]

/-- The tail is what follows the header. -/
theorem layout_tail (m : BinMessage B) : m.layout.drop m.headLen = m.tail := by
  have hsplit : m.layout = ([binVersion, m.lengthByte, m.flags] ++ m.name ++ idField m.id
      ++ idField m.rid) ++ m.tail := by simp [layout]
  have hpre : ([binVersion, m.lengthByte, m.flags] ++ m.name ++ idField m.id
      ++ idField m.rid).length = m.headLen := by
    simp only [List.length_append, List.length_cons, List.length_nil, headLen_eq m, binHeaderMinLen]
  rw [hsplit, List.drop_left' hpre]

/-- The identifier, when there is one, stands behind the name. -/
theorem layout_id {m : BinMessage B} (hex : m.idExists = true) :
    readMessageid m.layout ((binHeaderMinLen : Int) + m.name.length) = .ok m.id := by
  have hf : idField m.id = intToVec [] m.id B.sizeofULong := by
    rw [idField]; exact if_pos hex
  have hsplit : m.layout = ([binVersion, m.lengthByte, m.flags] ++ m.name)
      ++ (intToVec [] m.id B.sizeofULong ++ (idField m.rid ++ m.tail)) := by simp [layout, hf]
  have hpos : (binHeaderMinLen : Int) + m.name.length
      = ([binVersion, m.lengthByte, m.flags] ++ m.name).length := by
    simp only [List.length_append, List.length_cons, List.length_nil, binHeaderMinLen]; push_cast; omega
  rw [hsplit, hpos]
  exact readMessageid_at _ _ _

/-- The reply identifier, when there is one, stands behind the identifier field. -/
theorem layout_rid {m : BinMessage B} (hex : m.ridExists = true) :
    readMessageid m.layout ((binHeaderMinLen : Int) + m.name.length + m.idExists.toNat * B.sizeofULong)
      = .ok m.rid := by
  have hf : idField m.rid = intToVec [] m.rid B.sizeofULong := by
    rw [idField]; exact if_pos hex
  have hsplit : m.layout = ([binVersion, m.lengthByte, m.flags] ++ m.name ++ idField m.id)
      ++ (intToVec [] m.rid B.sizeofULong ++ m.tail) := by simp [layout, hf]
  have hpos : (binHeaderMinLen : Int) + m.name.length + m.idExists.toNat * B.sizeofULong
      = ([binVersion, m.lengthByte, m.flags] ++ m.name ++ idField m.id).length := by
    simp only [List.length_append, List.length_cons, List.length_nil, length_idField, binHeaderMinLen,
      idExists]
    push_cast; omega
  rw [hsplit, hpos]
  exact readMessageid_at _ _ _

/-- `name_len` also holds as a signed iterator offset: a header of one byte's length is far from the
    sign bit. -/
theorem toInt_nameLen {m : BinMessage B} {headLen : SizeT B} (h : headLen.toNat = m.headLen)
    (hle : m.headLen ≤ 255) : (nameLen headLen m.flags).toInt = m.name.length := by
  have hfields := headLen_eq m
  have hsmall : 2 * m.name.length < 2 ^ B.sizeBits := by
    rcases B.size_width with hb | hb <;> rw [hb] <;> omega
  rw [BitVec.toInt_eq_toNat_of_lt (by rw [toNat_nameLen h]; exact hsmall), toNat_nameLen h]

/-- **A short header is read back.** With at most 127 header bytes, a fresh message of the same name
    unserializes a layout to its identifiers and its tail. -/
theorem unserialize_layout {m self : BinMessage B} (hlen : m.headLen ≤ 127) (hname : self.name = m.name)
    (hid : self.id = undefinedMessageid) (hrid : self.rid = undefinedMessageid) :
    self.unserialize m.layout = .ok { self with id := m.id, rid := m.rid, tail := m.tail } := by
  have hhead := toNat_lengthByte hlen
  have hidAt : readField m.idExists m.layout ((binHeaderMinLen : Int) + m.name.length) self.id
      = .ok m.id := by
    rw [readField]
    by_cases hex : m.idExists = true
    · rw [if_pos hex, layout_id hex]
    · have hu : m.id = undefinedMessageid := by simpa [idExists] using hex
      rw [if_neg hex, hid, hu]; rfl
  have hridAt : readField m.ridExists m.layout ((binHeaderMinLen : Int) + m.name.length
      + m.idExists.toNat * B.sizeofULong) self.rid = .ok m.rid := by
    rw [readField]
    by_cases hex : m.ridExists = true
    · rw [if_pos hex, layout_rid hex]
    · have hu : m.rid = undefinedMessageid := by simpa [ridExists] using hex
      rw [if_neg hex, hrid, hu]; rfl
  have hle : ¬ m.layout.length < m.headLen := by rw [length_layout]; omega
  have hgot := layout_name m
  have htail := layout_tail m
  rw [layout] at hle hgot htail hidAt hridAt ⊢
  rw [unserialize]
  simp only [ne_eq, not_true_eq_false, if_false, hhead, hle, toNat_nameLen hhead, hgot,
    toInt_nameLen hhead (by omega), isIdExists_flags, isRidExists_flags, hname, htail, hidAt, hridAt]
  rfl

end BinMessage

end Unicomm
