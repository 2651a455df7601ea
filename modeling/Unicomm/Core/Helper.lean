import Unicomm.Core.Basic
import Unicomm.Lib.Digits
import Mathlib.Data.Nat.Bitwise

/-!
# `Core.Helper` — the integer codec of `unicomm/helper.hpp`

`int_to_vec` appends the bytes of an unsigned integer, least significant first; `int_from_vec` reads a byte
range back. The code uses it on ranges of plain `char`s: every byte is sign-extended to the integer type and the
sign bits are masked off again. `intFromVecAs` is the same loop over `signed char` or `unsigned char`. A type
narrower than `int` is promoted before the shift; the bits that are kept are the same.

The facts are stated in base 256: the bytes written are the low digits of the value (`toNat_byteAt`,
`Lib.Digits`), the integer read has the bytes as its digits (`toNat_intFromVecAs`).
-/

namespace Unicomm

variable {w : Nat}

/-- One byte of an integer as `int_to_vec` pushes it: `static_cast<char>(value >> (i * 8) & 0xff)`. -/
def byteAt (value : BitVec (8 * w)) (i : Nat) : Byte :=
  ((value >>> (i * 8)) &&& BitVec.ofNat _ 0xff).setWidth 8

/-- The loop of `int_to_vec`: `valueSz` bytes are left, `i` is the number of the next one. -/
def intToVecLoop (value : BitVec (8 * w)) : Nat → Nat → Str → Str
  | 0,           _, data => data
  | valueSz + 1, i, data => intToVecLoop value valueSz (i + 1) (data ++ [byteAt value i])

/-- `int_to_vec`: append `valueSz` bytes of `value`, least significant first. -/
def intToVec (data : Str) (value : BitVec (8 * w)) (valueSz : Nat) : Str :=
  intToVecLoop value valueSz 0 data

/-- The loop of `int_from_vec`: `v` holds the bytes read so far, `i` is the number of the next one. -/
def intFromVecLoop : Str → Nat → BitVec (8 * w) → BitVec (8 * w)
  | [],      _, v => v
  | c :: cs, i, v =>
      intFromVecLoop cs (i + 1) (v ||| ((c.signExtend (8 * w) &&& BitVec.ofNat _ 0xff) <<< (i * 8)))

/-- `int_from_vec`: the integer whose bytes, least significant first, are `bytes`. -/
def intFromVec (bytes : Str) : BitVec (8 * w) := intFromVecLoop bytes 0 0

/-- The element types of a byte collection. -/
inductive CharType where
  | signed
  | unsigned
  deriving DecidableEq, Repr

/-- The conversion of one element to the integer type, `static_cast<IntegerT>(*first)`. -/
def CharType.toInteger (t : CharType) (c : Byte) : BitVec (8 * w) :=
  match t with
  | .signed   => c.signExtend (8 * w)
  | .unsigned => c.setWidth (8 * w)

/-- The loop of `int_from_vec` over a collection of `t`. -/
def intFromVecLoopAs (t : CharType) : Str → Nat → BitVec (8 * w) → BitVec (8 * w)
  | [],      _, v => v
  | c :: cs, i, v =>
      intFromVecLoopAs t cs (i + 1) (v ||| ((t.toInteger c &&& BitVec.ofNat _ 0xff) <<< (i * 8)))

/-- `int_from_vec` over a collection of `t`. -/
def intFromVecAs (t : CharType) (bytes : Str) : BitVec (8 * w) := intFromVecLoopAs t bytes 0 0

/-! ## What the loops compute -/

theorem intToVecLoop_eq (value : BitVec (8 * w)) (k i : Nat) (data : Str) :
    intToVecLoop value k i data = data ++ (List.range' i k).map (byteAt value) := by
  induction k generalizing i data with
  | zero => simp [intToVecLoop]
  | succ k ih =>
      rw [intToVecLoop, ih, List.range'_succ, List.map_cons, List.append_assoc, List.singleton_append]

/-- `int_to_vec` keeps what is there and appends the first bytes of the value. -/
theorem intToVec_eq (data : Str) (value : BitVec (8 * w)) (k : Nat) :
    intToVec data value k = data ++ (List.range' 0 k).map (byteAt value) :=
  intToVecLoop_eq value k 0 data

theorem length_intToVec (data : Str) (value : BitVec (8 * w)) (k : Nat) :
    (intToVec data value k).length = data.length + k := by
  rw [intToVec_eq, List.length_append, List.length_map, List.length_range']

theorem intFromVecLoopAs_signed (bytes : Str) (i : Nat) (v : BitVec (8 * w)) :
    intFromVecLoopAs .signed bytes i v = intFromVecLoop bytes i v := by
  induction bytes generalizing i v with
  | nil => rfl
  | cons c cs ih => rw [intFromVecLoopAs, intFromVecLoop, ih]; rfl

/-- Plain `char` is signed. -/
theorem intFromVecAs_signed (bytes : Str) :
    (intFromVecAs .signed bytes : BitVec (8 * w)) = intFromVec bytes :=
  intFromVecLoopAs_signed bytes 0 0

/-! ## Bytes as digits -/

/-- Bit `j` of the mask `0xff`. -/
theorem getLsbD_mask {n : Nat} (hn : 8 ≤ n) (j : Nat) :
    (BitVec.ofNat n 0xff).getLsbD j = decide (j < 8) := by
  have h255 : Nat.testBit 255 j = decide (j < 8) := Nat.testBit_two_pow_sub_one 8 j
  rw [BitVec.getLsbD_ofNat, h255]
  by_cases h : j < 8
  · simp [h, Nat.lt_of_lt_of_le h hn]
  · simp [h]

/-- The mask takes the sign bits off again: what is left is the byte, whatever the element type. -/
theorem toInteger_and_mask (hw : 1 ≤ w) (t : CharType) (c : Byte) :
    (t.toInteger c : BitVec (8 * w)) &&& BitVec.ofNat _ 0xff = c.setWidth (8 * w) := by
  apply BitVec.eq_of_getLsbD_eq
  intro j hj
  rw [BitVec.getLsbD_and, getLsbD_mask (by omega), BitVec.getLsbD_setWidth, decide_eq_true hj, Bool.true_and]
  by_cases h8 : j < 8
  · cases t with
    | signed =>
        rw [CharType.toInteger, BitVec.getLsbD_signExtend]
        simp [h8, hj]
    | unsigned => simp [CharType.toInteger, h8, hj]
  · have hout : c.getLsbD j = false := BitVec.getLsbD_of_ge c _ (by omega)
    simp [h8, hout]

/-- Byte `i` of a value is its digit `i` in base 256. -/
theorem toNat_byteAt (value : BitVec (8 * w)) (i : Nat) :
    (byteAt value i).toNat = value.toNat / 256 ^ i % 256 := by
  have hpow : (2 : Nat) ^ (i * 8) = 256 ^ i := by rw [Nat.mul_comm, Nat.pow_mul]
  rcases w with _ | w
  · -- a type without bits: the value is zero
    simp [byteAt, BitVec.toNat_of_zero_length]
  · have hmask : (0xff : Nat) % 2 ^ (8 * (w + 1)) = 2 ^ 8 - 1 :=
      Nat.mod_eq_of_lt (Nat.lt_of_lt_of_le (by norm_num) (Nat.pow_le_pow_right (by omega) (by omega : 8 ≤ _)))
    rw [byteAt, BitVec.toNat_setWidth, BitVec.toNat_and, BitVec.toNat_ushiftRight, BitVec.toNat_ofNat, hmask,
      Nat.and_two_pow_sub_one_eq_mod, Nat.mod_mod, Nat.shiftRight_eq_div_pow, hpow]

/-- What one turn of the loop of `int_from_vec` adds at position `i`. -/
theorem toNat_shifted {i : Nat} (hi : i < w) (t : CharType) (c : Byte) :
    ((t.toInteger c &&& BitVec.ofNat (8 * w) 0xff) <<< (i * 8)).toNat = c.toNat <<< (8 * i) := by
  have hc : c.toNat < 2 ^ (8 * w) := Nat.lt_of_lt_of_le c.isLt (Nat.pow_le_pow_right (by omega) (by omega))
  have hlt : c.toNat <<< (8 * i) < 2 ^ (8 * w) :=
    calc c.toNat <<< (8 * i) = c.toNat * 2 ^ (8 * i) := Nat.shiftLeft_eq _ _
      _ < 2 ^ 8 * 2 ^ (8 * i) := Nat.mul_lt_mul_of_pos_right c.isLt (Nat.two_pow_pos _)
      _ = 2 ^ (8 + 8 * i) := (Nat.pow_add 2 8 (8 * i)).symm
      _ ≤ 2 ^ (8 * w) := Nat.pow_le_pow_right (by omega) (by omega)
  rw [toInteger_and_mask (by omega), BitVec.toNat_shiftLeft, BitVec.toNat_setWidth, Nat.mod_eq_of_lt hc,
    Nat.mul_comm i 8, Nat.mod_eq_of_lt hlt]

/-- The loop of `int_from_vec` puts the bytes that are left above the ones read so far. -/
theorem toNat_intFromVecLoopAs (t : CharType) (bytes : Str) (i : Nat) (v : BitVec (8 * w))
    (hlen : i + bytes.length ≤ w) (hv : v.toNat < 2 ^ (8 * i)) :
    (intFromVecLoopAs t bytes i v).toNat = v.toNat + 256 ^ i * Nat.ofDigits 256 (bytes.map BitVec.toNat) := by
  induction bytes generalizing i v with
  | nil => simp [intFromVecLoopAs]
  | cons c cs ih =>
      have hi : i < w := by simp only [List.length_cons] at hlen; omega
      have hpow : (2 : Nat) ^ (8 * i) = 256 ^ i := by rw [Nat.pow_mul]
      -- the byte of this turn lies above all the bits read so far, so `|=` adds it
      have hor : (v ||| ((t.toInteger c &&& BitVec.ofNat _ 0xff) <<< (i * 8))).toNat
          = v.toNat + 256 ^ i * c.toNat := by
        rw [BitVec.toNat_or, toNat_shifted hi, Nat.or_comm, ← Nat.shiftLeft_add_eq_or_of_lt hv,
          Nat.shiftLeft_eq, hpow]
        ring
      have hnext : v.toNat + 256 ^ i * c.toNat < 2 ^ (8 * (i + 1)) :=
        calc v.toNat + 256 ^ i * c.toNat < 256 ^ i + 256 ^ i * c.toNat := by rw [← hpow]; omega
          _ = 256 ^ i * (c.toNat + 1) := by ring
          _ ≤ 256 ^ i * 256 := Nat.mul_le_mul_left _ c.isLt
          _ = 2 ^ (8 * (i + 1)) := by rw [Nat.mul_add, Nat.pow_add, hpow]
      rw [intFromVecLoopAs, ih (i + 1) _ (by simp only [List.length_cons] at hlen; omega) (by rw [hor]; exact hnext),
        hor, List.map_cons, Nat.ofDigits_cons]
      ring

/-- `int_from_vec` reads the integer whose digits are the bytes. -/
theorem toNat_intFromVecAs (t : CharType) (bytes : Str) (hlen : bytes.length ≤ w) :
    (intFromVecAs t bytes : BitVec (8 * w)).toNat = Nat.ofDigits 256 (bytes.map BitVec.toNat) := by
  rw [intFromVecAs, toNat_intFromVecLoopAs t bytes 0 0 (by omega) (by simp)]
  simp

/-- The bytes `int_to_vec` appends are the low digits of the value. -/
theorem toNat_bytes (value : BitVec (8 * w)) (k : Nat) :
    ((List.range' 0 k).map (byteAt value)).map BitVec.toNat = Digits.lowDigits 256 k value.toNat := by
  rw [Digits.lowDigits, List.map_map, List.range_eq_range']
  exact List.map_congr_left (fun i _ => toNat_byteAt value i)

/-- The first `k` bytes of a value, read back, are the value modulo `2 ^ (8 * k)`. -/
theorem toNat_intFromVecAs_bytes (t : CharType) (value : BitVec (8 * w)) {k : Nat} (hk : k ≤ w) :
    (intFromVecAs t ((List.range' 0 k).map (byteAt value)) : BitVec (8 * w)).toNat
      = value.toNat % 2 ^ (8 * k) := by
  rw [toNat_intFromVecAs t _ (by simpa using hk), toNat_bytes, Digits.ofDigits_lowDigits, Nat.pow_mul]

/-- The bytes of the integer read from `bytes` are `bytes`. -/
theorem bytes_intFromVecAs (t : CharType) (bytes : Str) (hlen : bytes.length ≤ w) :
    (List.range' 0 bytes.length).map (byteAt (intFromVecAs t bytes : BitVec (8 * w))) = bytes := by
  have hdigit : ∀ d ∈ bytes.map BitVec.toNat, d < 256 := by
    intro d hd
    obtain ⟨c, _, rfl⟩ := List.mem_map.mp hd
    exact c.isLt
  have hback := Digits.lowDigits_ofDigits (by norm_num) hdigit
  rw [List.length_map, ← toNat_intFromVecAs t bytes hlen, ← toNat_bytes] at hback
  exact List.map_injective_iff.mpr (fun _ _ h => BitVec.eq_of_toNat_eq h) hback

/-! ## Round trips -/

/-- **Round trip.** All bytes of a value, read back, are the value. -/
theorem intFromVec_bytes (value : BitVec (8 * w)) :
    intFromVec ((List.range' 0 w).map (byteAt value)) = value := by
  apply BitVec.eq_of_toNat_eq
  rw [← intFromVecAs_signed, toNat_intFromVecAs_bytes .signed value (Nat.le_refl w)]
  exact Nat.mod_eq_of_lt value.isLt

/-- **The integer codec is a little-endian bijection.** `int_to_vec` with length `n` keeps what is there and
    appends `n` bytes; read back, from either kind of `char`, they are the value modulo `2 ^ (8 * n)`. And what
    is read from `n` bytes is written as these bytes. -/
theorem int_codec_bijective (w n : Nat) (hn : n ≤ w) :
    (∀ (data : Str) (value : BitVec (8 * w)), ∃ bytes,
        intToVec data value n = data ++ bytes ∧ bytes.length = n
        ∧ ∀ t, (intFromVecAs t bytes : BitVec (8 * w)).toNat = value.toNat % 2 ^ (8 * n))
    ∧ ∀ (t : CharType) (data bytes : Str), bytes.length = n →
        intToVec data (intFromVecAs t bytes : BitVec (8 * w)) n = data ++ bytes := by
  refine ⟨fun data value => ⟨(List.range' 0 n).map (byteAt value), intToVec_eq data value n, by simp,
    fun t => toNat_intFromVecAs_bytes t value hn⟩, ?_⟩
  intro t data bytes hlen
  subst hlen
  rw [intToVec_eq, bytes_intFromVecAs t bytes hn]

/-- Two of the four bytes of an `unsigned int`, with bytes whose sign bit is set. -/
theorem int_codec_bijective_uint :
    2 ≤ 4
    ∧ (∃ bytes, intToVec [0x41] (0x1122c4ff : BitVec (8 * 4)) 2 = 0x41 :: bytes ∧ bytes.length = 2
        ∧ ∀ t, (intFromVecAs t bytes : BitVec (8 * 4)).toNat = 0xc4ff)
    ∧ intToVec [0x41] (intFromVecAs .signed [0xff, 0xc4] : BitVec (8 * 4)) 2 = [0x41, 0xff, 0xc4] := by
  have h : 2 ≤ 4 := by decide
  obtain ⟨hwrite, hread⟩ := int_codec_bijective 4 2 h
  exact ⟨h, hwrite [0x41] 0x1122c4ff, hread .signed [0x41] [0xff, 0xc4] rfl⟩

end Unicomm
