import Unicomm.Facade.BinCodec

/-!
# `Facade.Header` — which byte strings the header parsers accept

`get_message_name` and `unserialize` parse the header twice, with the same arithmetic. `parseHeader` says what
they are to do: with `L` the length byte as an unsigned number, the name and the identifiers fill the `L - 3`
bytes behind the first three, and the tail is what comes after byte `L`.

The code holds `L` in a plain `char`, so a length byte above 127 becomes a huge number and a good header is
refused; and it never asks whether the identifiers fit, so a length that is too small wraps around, the name
becomes all the rest of the message, and the identifiers are read before its first byte. `parsesRight_iff`: for
every other string both parsers do what they are to do.
-/

namespace Unicomm

variable {B : Build}

/-! ## The header grammar -/

/-- The number of identifier fields the flags announce. -/
def idCount (flags : Byte) : Nat := (isIdExists flags).toNat + (isRidExists flags).toNat

/-- **The header grammar**: three bytes, the first of them the version, and a length byte that covers these and
    the identifiers and does not go beyond the string. -/
def Grammar (B : Build) : Str → Prop
  | version :: length :: flags :: rest =>
      version = binVersion ∧ binHeaderMinLen + idCount flags * B.sizeofULong ≤ length.toNat
        ∧ length.toNat ≤ rest.length + binHeaderMinLen
  | _ => False

instance (raw : Str) : Decidable (Grammar B raw) := by
  unfold Grammar
  split <;> infer_instance

/-- What a header says, and what follows it. -/
structure Header (B : Build) where
  name : Str
  id   : Option (MessageId B)
  rid  : Option (MessageId B)
  tail : Str

/-- The identifier at position `first`. -/
def idAt (raw : Str) (first : Nat) : MessageId B := intFromVec ((raw.drop first).take B.sizeofULong)

/-- **What the parsers are to do.** -/
def parseHeader (B : Build) (raw : Str) : Option (Header B) :=
  match raw with
  | _ :: length :: flags :: _ =>
      if Grammar B raw then
        let nameLen := length.toNat - (binHeaderMinLen + idCount flags * B.sizeofULong)
        let first := binHeaderMinLen + nameLen
        some {
          name := (raw.drop binHeaderMinLen).take nameLen
          id   := if isIdExists flags then some (idAt raw first) else none
          rid  := if isRidExists flags then some (idAt raw (first + (isIdExists flags).toNat * B.sizeofULong)) else none
          tail := raw.drop length.toNat }
      else none
  | _ => none

/-- The parsers accept a header exactly when it is in the grammar. -/
theorem isSome_parseHeader (raw : Str) : (parseHeader B raw).isSome = true ↔ Grammar B raw := by
  unfold parseHeader
  split
  · split
    · next h => simp only [Option.isSome_some, h]
    · next h => simp only [Option.isSome_none, Bool.false_eq_true, h]
  · next h =>
      unfold Grammar
      split
      · next v l f rest => exact absurd rfl (h v l f rest)
      · simp only [Option.isSome_none, Bool.false_eq_true]

/-- The message a header belongs to, once it is read into `self`. -/
def Header.into (h : Header B) (self : BinMessage B) : BinMessage B :=
  { self with id := h.id.getD self.id, rid := h.rid.getD self.rid, tail := h.tail }

/-- **Both parsers do what they are to do** with a string: the decoder finds the name of the header and refuses
    what has none; a message of that name takes the identifiers and the tail, and no message takes anything from
    a refused string; and nothing outside the string is read. -/
structure ParsesRight (B : Build) (raw : Str) : Prop where
  name   : (getMessageName B raw).toOption = (parseHeader B raw).map Header.name
  fields : ∀ self : BinMessage B, (∀ name, getMessageName B raw = .ok name → self.name = name) →
    (self.unserialize raw).toOption = (parseHeader B raw).map (fun h => h.into self)
  inside : getMessageName B raw ≠ .error .undefinedBehavior ∧
    ∀ self : BinMessage B, self.unserialize raw ≠ .error .undefinedBehavior

/-- A string whose length byte the code reads right: it is not above 127, and covers the identifiers. The
    question does not arise for a string without a header. -/
def LengthFits (B : Build) : Str → Prop
  | version :: length :: flags :: rest =>
      version = binVersion → length.toNat ≤ rest.length + binHeaderMinLen →
        binHeaderMinLen + idCount flags * B.sizeofULong ≤ length.toNat ∧ length.toNat ≤ 127
  | _ => True

instance (raw : Str) : Decidable (LengthFits B raw) := by
  unfold LengthFits
  split <;> infer_instance

/-! ## What the code does -/

/-- The version is compared as a `size_t`, which makes no difference. -/
theorem toSize_eq_version {c : Byte} : (c.toSize : SizeT B) = binVersion.toSize ↔ c = binVersion := by
  constructor
  · intro h
    have hzero : (c.toSize : SizeT B).toNat = 0 := by
      rw [h, Byte.toNat_toSize_of_lt (by decide)]; rfl
    by_cases hc : c.toNat < 128
    · rw [Byte.toNat_toSize_of_lt hc] at hzero
      exact BitVec.eq_of_toNat_eq hzero
    · have hhuge : 2 ^ B.sizeBits - 128 ≤ (c.toSize : SizeT B).toNat := Byte.le_toNat_toSize (by omega)
      rw [hzero] at hhuge
      rcases B.size_width with hb | hb <;> rw [hb] at hhuge <;> omega
  · rintro rfl
    rfl

variable {version length flags : Byte} {rest : Str}

/-- **What the checks refuse**: a wrong version, a length beyond the string, or one above 127. -/
theorem checks_refuse (hfit : rest.length + 3 ≤ B.maxSize)
    (h : version ≠ binVersion ∨ rest.length + 3 < length.toNat ∨ 128 ≤ length.toNat) :
    (version.toSize : SizeT B) ≠ binVersion.toSize
      ∨ (version :: length :: flags :: rest).length < (length.toSize : SizeT B).toNat := by
  rcases h with hv | hover | hhigh
  · exact Or.inl (fun heq => hv (toSize_eq_version.mp heq))
  all_goals
    right
    have hmax : B.maxSize < 2 ^ B.sizeBits - 128 := by
      rw [Build.maxSize]; rcases B.size_width with hb | hb <;> rw [hb] <;> decide
    simp only [List.length_cons]
    by_cases hl : length.toNat < 128
    · rw [Byte.toNat_toSize_of_lt hl]
      omega
    · have hhuge : 2 ^ B.sizeBits - 128 ≤ (length.toSize : SizeT B).toNat := Byte.le_toNat_toSize (by omega)
      omega

/-- The decoder throws at a refused header. -/
theorem getMessageName_refused
    (h : (version.toSize : SizeT B) ≠ binVersion.toSize
      ∨ (version :: length :: flags :: rest).length < (length.toSize : SizeT B).toNat) :
    ∃ text, getMessageName B (version :: length :: flags :: rest) = .error (.messageDecoderError text) := by
  rw [getMessageName]
  by_cases hv : (version.toSize : SizeT B) = binVersion.toSize
  · have hlt := h.resolve_left (fun hne => hne hv)
    simp only [ne_eq, hv, not_true_eq_false, if_false, hlt, if_true]
    exact ⟨_, rfl⟩
  · simp only [ne_eq, hv, not_false_eq_true, if_true]
    exact ⟨_, rfl⟩

/-- So does a message. -/
theorem unserialize_refused (self : BinMessage B)
    (h : (version.toSize : SizeT B) ≠ binVersion.toSize
      ∨ (version :: length :: flags :: rest).length < (length.toSize : SizeT B).toNat) :
    ∃ text, self.unserialize (version :: length :: flags :: rest) = .error (.runtimeError text) := by
  rw [BinMessage.unserialize]
  by_cases hv : (version.toSize : SizeT B) = binVersion.toSize
  · have hlt := h.resolve_left (fun hne => hne hv)
    simp only [ne_eq, hv, not_true_eq_false, if_false, hlt, if_true]
    exact ⟨_, rfl⟩
  · simp only [ne_eq, hv, not_false_eq_true, if_true]
    exact ⟨_, rfl⟩

/-- **An accepted header**: nothing is asked about the identifiers. -/
theorem getMessageName_accepted (hlow : length.toNat ≤ 127) (hle : length.toNat ≤ rest.length + 3) :
    getMessageName B (binVersion :: length :: flags :: rest)
      = .ok (rest.take (BinMessage.nameLen (length.toSize : SizeT B) flags).toNat) := by
  have hnot : ¬ (binVersion :: length :: flags :: rest).length < (length.toSize : SizeT B).toNat := by
    rw [Byte.toNat_toSize_of_lt (by omega)]
    simpa using hle
  rw [getMessageName]
  simp only [ne_eq, not_true_eq_false, if_false, hnot]
  rfl

/-- The bytes of the identifier fields. -/
theorem idCount_mul (flags : Byte) :
    (isIdExists flags).toNat * B.sizeofULong + (isRidExists flags).toNat * B.sizeofULong
      = idCount flags * B.sizeofULong := by
  rw [idCount, Nat.add_mul]

/-- `name_len` is small as an iterator offset when the header length covers the identifiers. -/
theorem toInt_nameLen_of_le {headLen : SizeT B} (hlow : headLen.toNat ≤ 127)
    (h : binHeaderMinLen + idCount flags * B.sizeofULong ≤ headLen.toNat) :
    (BinMessage.nameLen headLen flags).toInt
      = (headLen.toNat - (binHeaderMinLen + idCount flags * B.sizeofULong) : Nat) := by
  have hnat := BinMessage.toNat_nameLen_of_le (idCount_mul flags) h
  have hpow : 256 ≤ 2 ^ B.sizeBits := by rcases B.size_width with hb | hb <;> rw [hb] <;> decide
  rw [BitVec.toInt_eq_toNat_of_lt (by rw [hnat]; omega), hnat]

/-- Inside the string an identifier is read where it stands. -/
theorem readMessageid_inside {raw : Str} {first : Nat} (h : first + B.sizeofULong ≤ raw.length) :
    BinMessage.readMessageid (B := B) raw (first : Int) = .ok (idAt raw first) := by
  have hin : 0 ≤ (first : Int) ∧ (first : Int) + B.sizeofULong ≤ raw.length := by omega
  rw [BinMessage.readMessageid, if_pos hin, Int.toNat_natCast]
  rfl

/-- A field that stands inside the string when it is there. -/
theorem readField_inside {present : Bool} {raw : Str} {pos : Int} {first : Nat} {old : MessageId B}
    (h : present = true → pos = first ∧ first + B.sizeofULong ≤ raw.length) :
    BinMessage.readField present raw pos old
      = .ok ((if present then some (idAt raw first) else none).getD old) := by
  rw [BinMessage.readField]
  cases present with
  | false => rfl
  | true =>
      obtain ⟨rfl, hin⟩ := h rfl
      exact readMessageid_inside hin

/-- **A well-formed header below 128 is unserialized as the grammar says**, by a message of its name; one of
    another name throws before it reads an identifier. -/
theorem unserialize_grammar (hlow : length.toNat ≤ 127) (hle : length.toNat ≤ rest.length + 3)
    (hids : binHeaderMinLen + idCount flags * B.sizeofULong ≤ length.toNat) :
    ∃ h : Header B, parseHeader B (binVersion :: length :: flags :: rest) = some h
      ∧ getMessageName B (binVersion :: length :: flags :: rest) = .ok h.name
      ∧ ∀ self : BinMessage B,
          (self.name = h.name →
            self.unserialize (binVersion :: length :: flags :: rest) = .ok (h.into self)) ∧
          (self.name ≠ h.name → ∃ text,
            self.unserialize (binVersion :: length :: flags :: rest) = .error (.runtimeError text)) := by
  have hgrammar : Grammar B (binVersion :: length :: flags :: rest) := ⟨rfl, hids, hle⟩
  have hhead : (length.toSize : SizeT B).toNat = length.toNat := Byte.toNat_toSize_of_lt (by omega)
  have hlen : (BinMessage.nameLen (length.toSize : SizeT B) flags).toNat
      = length.toNat - (binHeaderMinLen + idCount flags * B.sizeofULong) := by
    rw [BinMessage.toNat_nameLen_of_le (idCount_mul flags) (by rw [hhead]; exact hids), hhead]
  have hoff : (BinMessage.nameLen (length.toSize : SizeT B) flags).toInt
      = (length.toNat - (binHeaderMinLen + idCount flags * B.sizeofULong) : Nat) := by
    rw [toInt_nameLen_of_le (by omega) (by rw [hhead]; exact hids), hhead]
  have hnot : ¬ (binVersion :: length :: flags :: rest).length < length.toNat := by simpa using hle
  rw [parseHeader, if_pos hgrammar]
  refine ⟨_, rfl, ?_, fun self => ⟨fun hself => ?_, fun hself => ?_⟩⟩
  · rw [getMessageName_accepted hlow hle, hlen]
    rfl
  · have hcount := idCount_mul (B := B) flags
    have hraw : (binVersion :: length :: flags :: rest).length = rest.length + 3 := rfl
    rw [binHeaderMinLen] at hids
    -- where the identifiers stand, in the terms of the code
    have hid : BinMessage.readField (isIdExists flags) (binVersion :: length :: flags :: rest)
        ((binHeaderMinLen : Int) + (length.toNat - (binHeaderMinLen + idCount flags * B.sizeofULong) : Nat)) self.id
        = .ok ((if isIdExists flags then some (idAt (binVersion :: length :: flags :: rest)
            (binHeaderMinLen + (length.toNat - (binHeaderMinLen + idCount flags * B.sizeofULong)))) else none).getD
              self.id) := by
      refine readField_inside fun hflag => ?_
      rw [hflag, Bool.toNat_true] at hcount
      rw [hraw, binHeaderMinLen]
      omega
    have hrid : BinMessage.readField (isRidExists flags) (binVersion :: length :: flags :: rest)
        ((binHeaderMinLen : Int) + (length.toNat - (binHeaderMinLen + idCount flags * B.sizeofULong) : Nat)
          + (isIdExists flags).toNat * B.sizeofULong) self.rid
        = .ok ((if isRidExists flags then some (idAt (binVersion :: length :: flags :: rest)
            (binHeaderMinLen + (length.toNat - (binHeaderMinLen + idCount flags * B.sizeofULong))
              + (isIdExists flags).toNat * B.sizeofULong)) else none).getD self.rid) := by
      refine readField_inside fun hflag => ?_
      rw [hflag, Bool.toNat_true] at hcount
      rw [hraw, binHeaderMinLen]
      omega
    have hname : ((binVersion :: length :: flags :: rest).drop binHeaderMinLen).take
        (length.toNat - (binHeaderMinLen + idCount flags * B.sizeofULong)) = self.name := hself.symm
    rw [BinMessage.unserialize]
    simp only [ne_eq, not_true_eq_false, if_false, hhead, hnot, hlen, hoff, hname, hid, hrid]
    rfl
  · have hname : ¬ ((binVersion :: length :: flags :: rest).drop binHeaderMinLen).take
        (length.toNat - (binHeaderMinLen + idCount flags * B.sizeofULong)) = self.name :=
      fun heq => hself heq.symm
    rw [BinMessage.unserialize]
    simp only [ne_eq, not_true_eq_false, if_false, hhead, hnot, hlen, hname, not_false_eq_true, if_true]
    exact ⟨_, rfl⟩

/-! ## The header of an encoded message -/

theorem idAt_of_readMessageid {raw : Str} {first : Nat} {value : MessageId B}
    (h : BinMessage.readMessageid raw (first : Int) = .ok value) : idAt raw first = value := by
  unfold BinMessage.readMessageid at h
  split at h
  · rw [Int.toNat_natCast] at h
    exact Except.ok.inj h
  · cases h

/-- **The grammar reads a layout back**, also when its length byte is above 127. -/
theorem parseHeader_layout {m : BinMessage B} (h : m.headLen ≤ 255) :
    parseHeader B m.layout = some {
      name := m.name
      id   := if m.idExists then some m.id else none
      rid  := if m.ridExists then some m.rid else none
      tail := m.tail } := by
  have hbyte : m.lengthByte.toNat = m.headLen := by
    rw [BinMessage.lengthByte, BitVec.toNat_ofNat]
    omega
  have hcount := idCount_mul (B := B) m.flags
  rw [BinMessage.isIdExists_flags, BinMessage.isRidExists_flags] at hcount
  have hhead : m.headLen = binHeaderMinLen + m.name.length + idCount m.flags * B.sizeofULong := by
    rw [BinMessage.headLen, ← hcount, ← Nat.add_assoc]
  have hname := BinMessage.layout_name m
  have htail := BinMessage.layout_tail m
  have hid : m.idExists = true → idAt m.layout (binHeaderMinLen + m.name.length) = m.id := by
    intro hex
    exact idAt_of_readMessageid (BinMessage.layout_id hex)
  have hrid : m.ridExists = true →
      idAt m.layout (binHeaderMinLen + m.name.length + m.idExists.toNat * B.sizeofULong) = m.rid := by
    intro hex
    exact idAt_of_readMessageid (BinMessage.layout_rid hex)
  have hlen := BinMessage.length_layout m
  rw [BinMessage.layout] at hname htail hid hrid hlen ⊢
  have hgrammar : Grammar B (binVersion :: m.lengthByte :: m.flags
      :: (m.name ++ (BinMessage.idField m.id ++ (BinMessage.idField m.rid ++ m.tail)))) := by
    refine ⟨rfl, by omega, ?_⟩
    rw [hbyte, binHeaderMinLen]
    simp only [List.length_cons] at hlen
    omega
  have hnameLen : m.headLen - (binHeaderMinLen + idCount m.flags * B.sizeofULong) = m.name.length := by
    omega
  rw [parseHeader, if_pos hgrammar]
  simp only [hbyte, hnameLen, hname, htail, BinMessage.isIdExists_flags, BinMessage.isRidExists_flags]
  congr 2
  · split
    · next hex => rw [hid hex]
    · rfl
  · split
    · next hex => rw [hrid hex]
    · rfl

/-- The header in the bytes of an encoded message. -/
def wireHeader (B : Build) (outBuffer : Str) : Option (Header B) :=
  (decodeRawMessage outBuffer).toOption.bind (parseHeader B)

/-- **The bytes carry** the two identifiers: a field that is absent means undefined. -/
def Carries (outBuffer : Str) (id rid : MessageId B) : Prop :=
  ∃ h, wireHeader B outBuffer = some h ∧ h.id.getD undefinedMessageid = id ∧ h.rid.getD undefinedMessageid = rid

/-- **What the encoder puts into the bytes** are the identifiers of the message. -/
theorem carries_performEncode {m : BinMessage B} {out : Str} (h : binMessageEncoder.performEncode m = .ok out) :
    Carries out m.id m.rid := by
  obtain ⟨hlen, -, rfl⟩ := performEncode_eq h
  have hraw : decodeRawMessage (binStuffing.stuff m.layout ++ [binMessageEnd]) = .ok m.layout := by
    rw [decodeRawMessage, List.dropLast_concat, ← binaryEncode_eq, binaryDecode_binaryEncode]
  unfold Carries wireHeader
  rw [hraw]
  refine ⟨_, parseHeader_layout hlen, ?_, ?_⟩
  · cases hex : m.idExists with
    | true  => simp
    | false =>
        have hundef : m.id = undefinedMessageid := by simpa [BinMessage.idExists] using hex
        simp [hundef]
  · cases hex : m.ridExists with
    | true  => simp
    | false =>
        have hundef : m.rid = undefinedMessageid := by simpa [BinMessage.ridExists] using hex
        simp [hundef]

/-! ## Exactly the fitting lengths -/

/-- Two identifiers fit below 128. -/
theorem idCount_mul_le (flags : Byte) : idCount flags * B.sizeofULong ≤ 16 := by
  have h2 : idCount flags ≤ 2 := Nat.add_le_add (Bool.toNat_le _) (Bool.toNat_le _)
  have h8 : B.sizeofULong ≤ 8 := by rcases B.ulong_width with h | h <;> omega
  exact Nat.mul_le_mul h2 h8

/-- A string no header starts. -/
theorem parseHeader_eq_none {raw : Str} (h : ¬ Grammar B raw) : parseHeader B raw = none := by
  have hnot : ¬ (parseHeader B raw).isSome = true := fun hs => h (isSome_parseHeader raw |>.mp hs)
  simpa using hnot

/-- **A refused header is parsed right** when there is none. -/
theorem ParsesRight.refused
    (hcheck : (version.toSize : SizeT B) ≠ binVersion.toSize
      ∨ (version :: length :: flags :: rest).length < (length.toSize : SizeT B).toNat)
    (h : ¬ Grammar B (version :: length :: flags :: rest)) :
    ParsesRight B (version :: length :: flags :: rest) := by
  obtain ⟨text, hname⟩ := getMessageName_refused hcheck
  have hnone := parseHeader_eq_none h
  constructor
  · rw [hname, hnone]
    rfl
  · intro self _
    obtain ⟨text', hself⟩ := unserialize_refused self hcheck
    rw [hself, hnone]
    rfl
  · refine ⟨fun hbad => ?_, fun self => ?_⟩
    · rw [hname] at hbad
      cases hbad
    obtain ⟨text', hself⟩ := unserialize_refused self hcheck
    rw [hself]
    intro hbad
    cases hbad

/-- **A header whose length byte is read right is parsed right.** -/
theorem ParsesRight.accepted (hlow : length.toNat ≤ 127) (hle : length.toNat ≤ rest.length + 3)
    (hids : binHeaderMinLen + idCount flags * B.sizeofULong ≤ length.toNat) :
    ParsesRight B (binVersion :: length :: flags :: rest) := by
  obtain ⟨header, hparse, hname, hself⟩ := unserialize_grammar hlow hle hids
  constructor
  · rw [hname, hparse]
    rfl
  · intro self hmatch
    rw [(hself self).1 (hmatch _ hname), hparse]
    rfl
  · refine ⟨fun hbad => ?_, fun self hbad => ?_⟩
    · rw [hname] at hbad
      cases hbad
    by_cases hown : self.name = header.name
    · have hread := (hself self).1 hown
      rw [hbad] at hread
      cases hread
    · obtain ⟨text, hread⟩ := (hself self).2 hown
      rw [hbad] at hread
      cases hread

/-- **The header parsers accept exactly the grammar** if and only if the length byte fits: the string has no
    header to read, or its length byte covers the identifiers and is not above 127. -/
theorem parsesRight_iff (raw : { s : Str // s.length ≤ B.maxSize }) :
    ParsesRight B raw.val ↔ LengthFits B raw.val := by
  obtain ⟨raw, hfit⟩ := raw
  rcases raw with _ | ⟨version, _ | ⟨length, _ | ⟨flags, rest⟩⟩⟩
  -- fewer than three bytes: both parsers refuse
  iterate 3
    refine iff_of_true ⟨rfl, fun _ _ => rfl, ?_, fun _ => ?_⟩ trivial <;> intro hbad <;> cases hbad
  have hfit : rest.length + 3 ≤ B.maxSize := hfit
  have hsmall := idCount_mul_le (B := B) flags
  rw [LengthFits, binHeaderMinLen]
  by_cases hv : version = binVersion
  · subst hv
    by_cases hle : length.toNat ≤ rest.length + 3
    · by_cases hlow : length.toNat ≤ 127
      · by_cases hids : 3 + idCount flags * B.sizeofULong ≤ length.toNat
        · exact iff_of_true (.accepted hlow hle hids) (fun _ _ => ⟨hids, hlow⟩)
        · -- the identifiers do not fit, and the code does not ask
          refine iff_of_false (fun h => ?_) (fun h => hids (h rfl hle).1)
          have hname := h.name
          have hnone : ¬ Grammar B (binVersion :: length :: flags :: rest) := fun hg => hids hg.2.1
          rw [getMessageName_accepted hlow hle, parseHeader_eq_none hnone] at hname
          cases hname
      · -- a header of this length is good, and the code refuses it
        refine iff_of_false (fun h => ?_) (fun h => hlow (h rfl hle).2)
        have hgrammar : Grammar B (binVersion :: length :: flags :: rest) :=
          ⟨rfl, by rw [binHeaderMinLen]; omega, hle⟩
        have hhigh : 128 ≤ length.toNat := by omega
        obtain ⟨text, hrefused⟩ := getMessageName_refused
          (checks_refuse hfit (.inr (.inr hhigh)))
        have hname := h.name
        rw [hrefused] at hname
        have hsome := isSome_parseHeader _ |>.mpr hgrammar
        rw [← Option.isSome_map (f := Header.name), ← hname] at hsome
        cases hsome
    · exact iff_of_true (.refused (checks_refuse hfit (.inr (.inl (by omega)))) (fun hg => hle hg.2.2))
        (fun _ h => absurd h hle)
  · exact iff_of_true (.refused (checks_refuse hfit (.inl hv)) (fun hg => hv hg.1)) (fun h => absurd h hv)

/-- **The parsers go wrong** at a header that announces an identifier it has no room for: the message reads it
    before its own first byte. -/
theorem parsesRight_fails : ¬ ParsesRight .lp64 [binVersion, 3, 1] := by
  intro h
  exact h.inside.2 ⟨[], 0, 0, 0, []⟩ (by decide +kernel)

end Unicomm
