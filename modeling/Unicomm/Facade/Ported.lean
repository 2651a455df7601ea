import Unicomm.Facade.Header

/-!
# `Facade.Ported` — the binary header between builds of different width

`messageid_type` is an `unsigned long`, and its width is in the header three times: in the bytes `serialize`
writes for an identifier, in the header length, and in the arithmetic of the two parsers. Here a message of a
build `B` is serialized there and read in a build `C`.

Without identifiers the width drops out and the two layouts are the same (`layout_ported`). With one, the two
parsers subtract an identifier of the wrong width from the header length, and what they take for the name is
longer or shorter than the name (`getMessageName_ne`).
-/

namespace Unicomm

variable {B C : Build}

namespace BinMessage

/-- The same message in another build: the identifiers take that build's width. -/
def ported (C : Build) (m : BinMessage B) : BinMessage C where
  name     := m.name
  id       := m.id.setWidth (8 * C.sizeofULong)
  rid      := m.rid.setWidth (8 * C.sizeofULong)
  priority := m.priority
  tail     := m.tail

/-- The message carries no identifier. -/
def WithoutIds (m : BinMessage B) : Prop := m.idExists = false ∧ m.ridExists = false

instance (m : BinMessage B) : Decidable m.WithoutIds := by
  unfold WithoutIds
  infer_instance

/-- **The build reads the bytes as the message**: the decoder finds its name, and a fresh message of that name
    takes its identifiers and its tail. -/
structure ReadAs (s : Str) (m : BinMessage C) : Prop where
  name   : getMessageName C s = .ok m.name
  fields : ∀ self : BinMessage C, self.name = m.name → self.id = undefinedMessageid →
    self.rid = undefinedMessageid →
      self.unserialize s = .ok { self with id := m.id, rid := m.rid, tail := m.tail }

/-! ## Identifiers that both builds can hold -/

/-- An identifier that fits the other width is defined there when it is defined here. -/
theorem setWidth_ne_undefined {n : Nat} {value : MessageId B} (h : value.toNat < 2 ^ n) :
    (value.setWidth n != 0) = (value != undefinedMessageid) := by
  have hnat : (value.setWidth n).toNat = value.toNat := by
    rw [BitVec.toNat_setWidth, Nat.mod_eq_of_lt h]
  have hzero : value.setWidth n = 0 ↔ value = undefinedMessageid := by
    rw [← BitVec.toNat_inj, hnat, undefinedMessageid, ← BitVec.toNat_inj]
    simp
  rw [Bool.eq_iff_iff, bne_iff_ne, bne_iff_ne, ne_eq, ne_eq, hzero]

theorem withoutIds_ported {m : BinMessage B} (hid : m.id.toNat < 2 ^ (8 * C.sizeofULong))
    (hrid : m.rid.toNat < 2 ^ (8 * C.sizeofULong)) : (m.ported C).WithoutIds ↔ m.WithoutIds := by
  have h1 : (m.ported C).idExists = m.idExists := setWidth_ne_undefined hid
  have h2 : (m.ported C).ridExists = m.ridExists := setWidth_ne_undefined hrid
  rw [WithoutIds, WithoutIds, h1, h2]

/-- Such a message is what it was when it comes back. -/
theorem ported_ported {m : BinMessage B} (hid : m.id.toNat < 2 ^ (8 * C.sizeofULong))
    (hrid : m.rid.toNat < 2 ^ (8 * C.sizeofULong)) : (m.ported C).ported B = m := by
  have hback : ∀ value : MessageId B, value.toNat < 2 ^ (8 * C.sizeofULong) →
      (value.setWidth (8 * C.sizeofULong)).setWidth (8 * B.sizeofULong) = value := by
    intro value h
    apply BitVec.eq_of_toNat_eq
    rw [BitVec.toNat_setWidth, BitVec.toNat_setWidth, Nat.mod_eq_of_lt h, Nat.mod_eq_of_lt value.isLt]
  exact BinMessage.ext rfl (hback _ hid) (hback _ hrid) rfl rfl

/-! ## Without identifiers -/

theorem WithoutIds.headLen {m : BinMessage B} (h : m.WithoutIds) :
    m.headLen = binHeaderMinLen + m.name.length := by
  rw [BinMessage.headLen, h.1, h.2]
  simp

/-- **Without identifiers the width is not in the layout.** -/
theorem layout_ported {m : BinMessage B} (h : m.WithoutIds) (h' : (m.ported C).WithoutIds) :
    (m.ported C).layout = m.layout := by
  have hidField : ∀ {D : Build} {m : BinMessage D}, m.WithoutIds → idField m.id = [] ∧ idField m.rid = [] := by
    intro D m hm
    exact ⟨by rw [idField, ← idExists, hm.1]; rfl, by rw [idField, ← ridExists, hm.2]; rfl⟩
  have hflags : (m.ported C).flags = m.flags := by
    rw [flags, flags, h.1, h.2, h'.1, h'.2]
  have hlength : (m.ported C).lengthByte = m.lengthByte := by
    rw [lengthByte, lengthByte, h.headLen, h'.headLen]
    rfl
  obtain ⟨hid, hrid⟩ := hidField h
  obtain ⟨hid', hrid'⟩ := hidField h'
  rw [layout, layout, hid, hrid, hid', hrid', hflags, hlength]
  rfl

/-- A layout of the reading build itself is read. -/
theorem readAs_layout {m : BinMessage C} (h : m.headLen ≤ 127) : ReadAs m.layout m where
  name   := getMessageName_layout h
  fields := fun _ hname hid hrid => unserialize_layout h hname hid hrid

/-! ## With identifiers -/

theorem idCount_flags_pos {m : BinMessage B} (h : ¬ m.WithoutIds) : 1 ≤ idCount m.flags := by
  rw [WithoutIds] at h
  rw [idCount, isIdExists_flags, isRidExists_flags]
  cases hid : m.idExists with
  | true => simp
  | false =>
      cases hrid : m.ridExists with
      | true => simp
      | false => exact absurd ⟨hid, hrid⟩ h

theorem headLen_idCount (m : BinMessage B) :
    m.headLen = binHeaderMinLen + m.name.length + idCount m.flags * B.sizeofULong := by
  rw [← idCount_mul, isIdExists_flags, isRidExists_flags, ← Nat.add_assoc]
  rfl

/-- **The wrong width gives the wrong name length.** `name_len` of the reading build is the length of the name
    only when the identifiers have the reader's width, also where the subtraction wraps around. -/
theorem nameLen_ne {m : BinMessage B} (hw : B.sizeofULong ≠ C.sizeofULong) (hids : ¬ m.WithoutIds)
    (hlen : m.headLen ≤ 127) :
    (nameLen (m.lengthByte.toSize : SizeT C) m.flags).toNat ≠ m.name.length := by
  intro h
  have hcount := idCount_flags_pos hids
  have hfields := idCount_mul_le (B := C) m.flags
  have hhead := headLen_idCount m
  have hpow : 256 ≤ 2 ^ C.sizeBits := by rcases C.size_width with hb | hb <;> rw [hb] <;> decide
  have hbyte : m.lengthByte.toNat = m.headLen := by
    rw [lengthByte, BitVec.toNat_ofNat]; omega
  rw [binHeaderMinLen] at hhead
  -- put the header length on one side: nothing is left to wrap around
  have hvec : nameLen (m.lengthByte.toSize : SizeT C) m.flags = BitVec.ofNat _ m.name.length := by
    apply BitVec.eq_of_toNat_eq
    rw [h, BitVec.toNat_ofNat, Nat.mod_eq_of_lt (by omega)]
  rw [nameLen, idCount_mul, BitVec.sub_eq_iff_eq_add, BitVec.sub_eq_iff_eq_add, ← BitVec.ofNat_add,
    ← BitVec.ofNat_add] at hvec
  have hnat := congrArg BitVec.toNat hvec
  rw [Byte.toNat_toSize_of_lt (by omega), hbyte, BitVec.toNat_ofNat, binHeaderMinLen,
    Nat.mod_eq_of_lt (by omega)] at hnat
  have hmul : idCount m.flags * B.sizeofULong = idCount m.flags * C.sizeofULong := by omega
  exact hw (Nat.eq_of_mul_eq_mul_left hcount hmul)

/-- **The decoder of the other build finds another name.** -/
theorem getMessageName_ne {m : BinMessage B} (hw : B.sizeofULong ≠ C.sizeofULong) (hids : ¬ m.WithoutIds)
    (hlen : m.headLen ≤ 127) : getMessageName C m.layout ≠ .ok m.name := by
  have hbyte : m.lengthByte.toNat = m.headLen := by
    rw [lengthByte, BitVec.toNat_ofNat]; omega
  have hne := nameLen_ne hw hids hlen
  have hcount := idCount_flags_pos hids
  have hpos : 1 ≤ B.sizeofULong := by rcases B.ulong_width with h | h <;> omega
  have hbytes : 1 ≤ idCount m.flags * B.sizeofULong := Nat.mul_pos hcount hpos
  have hhead := headLen_idCount m
  have hrest := length_layout m
  rw [layout] at hrest ⊢
  simp only [List.length_cons] at hrest
  rw [binHeaderMinLen] at hhead
  rw [getMessageName_accepted (by omega) (by omega)]
  intro h
  -- neither the length asked for nor what is there is the length of the name
  have hgot := congrArg List.length (Except.ok.inj h)
  rw [List.length_take] at hgot
  omega

/-! ## The two builds -/

/-- Bytes the decoder finds another name in are not read as the message. -/
theorem not_readAs {s : Str} {m : BinMessage C} {other : Str} (hgot : getMessageName C s = .ok other)
    (hne : other ≠ m.name) : ¬ ReadAs s m := by
  intro hread
  exact hne (Except.ok.inj (hgot.symm.trans hread.name))

/-- What `B` serializes, `C` reads as the same message exactly when there is no identifier in it. -/
theorem readAs_ported_iff {m : BinMessage B} (hw : B.sizeofULong ≠ C.sizeofULong)
    (hid : m.id.toNat < 2 ^ (8 * C.sizeofULong)) (hrid : m.rid.toNat < 2 ^ (8 * C.sizeofULong))
    (hB : m.headLen ≤ 127) (hC : (m.ported C).headLen ≤ 127) :
    ReadAs m.layout (m.ported C) ↔ m.WithoutIds := by
  constructor
  · intro h
    by_contra hids
    exact getMessageName_ne hw hids hB h.name
  · intro h
    have h' := (withoutIds_ported (C := C) hid hrid).mpr h
    rw [← layout_ported h h']
    exact readAs_layout hC

/-- **The wire format is independent of `unsigned long` for messages without identifiers only.** What a build
    with 8 bytes serializes is read by a build with 4 as the same message if and only if neither identifier is
    present, and conversely. -/
theorem wire_ported_iff (h8 : B.sizeofULong = 8) (h4 : C.sizeofULong = 4) (m : BinMessage B)
    (hid : m.id.toNat < 2 ^ 32) (hrid : m.rid.toNat < 2 ^ 32)
    (hB : m.headLen ≤ 127) (hC : (m.ported C).headLen ≤ 127) :
    (∀ s, m.serialize = .ok s → (ReadAs s (m.ported C) ↔ m.WithoutIds))
    ∧ ∀ s, (m.ported C).serialize = .ok s → (ReadAs s m ↔ m.WithoutIds) := by
  have hid' : m.id.toNat < 2 ^ (8 * C.sizeofULong) := by rw [h4]; exact hid
  have hrid' : m.rid.toNat < 2 ^ (8 * C.sizeofULong) := by rw [h4]; exact hrid
  refine ⟨fun s hs => ?_, fun s hs => ?_⟩
  · obtain ⟨-, -, rfl⟩ := serialize_eq_ok.mp hs
    exact readAs_ported_iff (by omega) hid' hrid' hB hC
  · obtain ⟨-, -, rfl⟩ := serialize_eq_ok.mp hs
    -- the message of the narrow build comes back as `m`
    have hback := ported_ported hid' hrid'
    have hle : ∀ value : MessageId C, value.toNat < 2 ^ (8 * B.sizeofULong) := fun value =>
      Nat.lt_of_lt_of_le value.isLt (Nat.pow_le_pow_right (by omega) (by omega))
    have h := readAs_ported_iff (C := B) (by omega) (hle (m.ported C).id) (hle (m.ported C).rid) hC
      (by rw [hback]; exact hB)
    rw [hback, withoutIds_ported hid' hrid'] at h
    exact h

/-- The message `a` without identifiers goes from Linux to Windows and back. -/
theorem wire_ported_iff_plain :
    (∀ s, (⟨[0x61], 0, 0, 0, []⟩ : BinMessage .lp64).serialize = .ok s →
      (ReadAs s (ported .llp64 (⟨[0x61], 0, 0, 0, []⟩ : BinMessage .lp64))
        ↔ (⟨[0x61], 0, 0, 0, []⟩ : BinMessage .lp64).WithoutIds))
    ∧ (⟨[0x61], 0, 0, 0, []⟩ : BinMessage .lp64).WithoutIds :=
  ⟨(wire_ported_iff (B := .lp64) (C := .llp64) rfl rfl ⟨[0x61], 0, 0, 0, []⟩ (by decide) (by decide) (by decide)
    (by decide)).1, by decide⟩

/-- **The two builds do not understand each other** about a message that carries an identifier: the receiver
    takes four bytes of it for the name, in either direction. -/
theorem wire_not_ported :
    ∃ m : BinMessage .lp64, m.id.toNat < 2 ^ 32 ∧ m.rid.toNat < 2 ^ 32 ∧ m.headLen ≤ 127
      ∧ (m.ported .llp64).headLen ≤ 127
      ∧ (∃ s, m.serialize = .ok s ∧ getMessageName .llp64 s = .ok (m.name ++ [1, 0, 0, 0])
          ∧ ¬ ReadAs s (m.ported .llp64))
      ∧ ∃ s, (m.ported .llp64).serialize = .ok s ∧ getMessageName .lp64 s = .ok (m.name ++ [1, 0, 0, 0])
          ∧ ¬ ReadAs s m := by
  refine ⟨⟨[0x61], 1, 0, 0, []⟩, by decide, by decide, by decide, by decide, ?_, ?_⟩
  · have hgot : getMessageName .llp64 [binVersion, 12, 1, 0x61, 1, 0, 0, 0, 0, 0, 0, 0]
        = .ok [0x61, 1, 0, 0, 0] := by decide +kernel
    exact ⟨_, by decide +kernel, hgot, not_readAs hgot (by decide)⟩
  · have hgot : getMessageName .lp64 [binVersion, 8, 1, 0x61, 1, 0, 0, 0] = .ok [0x61, 1, 0, 0, 0] := by
      decide +kernel
    exact ⟨_, by decide +kernel, hgot, not_readAs hgot (by decide)⟩

end BinMessage

end Unicomm
