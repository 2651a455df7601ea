import Mathlib.Data.List.Basic
import Mathlib.Tactic.NormNum

/-!
# `Core.Basic` — the types every other module is written in

Models `unicomm/basic.hpp` and the platform the library is built for.

- A `Build` fixes what the C++ standard leaves to the platform and the code depends on: `sizeof(unsigned long)`
  (the width of `messageid_type` on the wire) and the width of `size_t`.
- `Byte` is plain `char` as a bit pattern. It is **signed** on the compilers the build files target, so a
  conversion to a wider integer sign-extends (`Byte.toSize`).
- `Exc` lists what the modelled code throws, with the texts it throws them with.
-/

namespace Unicomm

/-- The platform parameters of a build. -/
structure Build where
  sizeofULong : Nat
  sizeBits    : Nat
  ulong_width : sizeofULong = 4 ∨ sizeofULong = 8
  size_width  : sizeBits = 32 ∨ sizeBits = 64

/-- Linux on x86-64: `unsigned long` and `size_t` have 8 bytes. -/
def Build.lp64 : Build := ⟨8, 64, .inr rfl, .inr rfl⟩

/-- Windows on x86-64: `unsigned long` has 4 bytes, `size_t` has 8. -/
def Build.llp64 : Build := ⟨4, 64, .inl rfl, .inr rfl⟩

/-- Plain `char`, as a bit pattern. -/
abbrev Byte := BitVec 8

/-- `std::string`, used both for text and for raw data. -/
abbrev Str := List Byte

variable (B : Build)

/-- The longest a `std::string` can be: the difference of two of its iterators is a `ptrdiff_t`. -/
def Build.maxSize : Nat := 2 ^ (B.sizeBits - 1) - 1

/-- `messageid_type`, an `unsigned long`. -/
abbrev MessageId := BitVec (8 * B.sizeofULong)

/-- Message identifiers are ordered as keys of a map. -/
instance : Std.TransOrd (MessageId B) := BitVec.instTransOrd

instance : Std.LawfulEqOrd (MessageId B) := BitVec.instLawfulEqOrd

/-- `size_t` where the code's arithmetic on it can wrap. -/
abbrev SizeT := BitVec B.sizeBits

/-- `commid_type`. Identifiers come from one counter of the dispatcher and are never reused. -/
abbrev CommId := Nat

variable {B}

/-- Undefined message identifier: the message instance has no identifier. -/
def undefinedMessageid : MessageId B := 0

/-- Undefined priority value. -/
def undefinedPriority : Nat := 0

/-- Implicit conversion of a plain `char` to `size_t`: sign extension. -/
def Byte.toSize (c : Byte) : SizeT B := c.signExtend B.sizeBits

/-- A `char` below `0x80` keeps its value as a `size_t`. -/
theorem Byte.toNat_toSize_of_lt {c : Byte} (h : c.toNat < 128) :
    (c.toSize : SizeT B).toNat = c.toNat := by
  have hmsb : c.msb = false := by
    rw [BitVec.msb_eq_false_iff_two_mul_lt]; omega
  have hw : c.toNat < 2 ^ B.sizeBits := by
    rcases B.size_width with hb | hb <;> rw [hb] <;> omega
  rw [Byte.toSize, BitVec.toNat_signExtend, hmsb, BitVec.toNat_setWidth, Nat.mod_eq_of_lt hw]
  simp

/-- A `char` from `0x80` on is negative, so as a `size_t` it is huge. -/
theorem Byte.le_toNat_toSize {c : Byte} (h : 128 ≤ c.toNat) :
    2 ^ B.sizeBits - 128 ≤ (c.toSize : SizeT B).toNat := by
  have hmsb : c.msb = true := by
    rw [BitVec.msb_eq_true_iff_two_mul_ge]; omega
  have hw : c.toNat < 2 ^ B.sizeBits := by
    rcases B.size_width with hb | hb <;> rw [hb] <;> omega
  rw [Byte.toSize, BitVec.toNat_signExtend, hmsb, BitVec.toNat_setWidth, Nat.mod_eq_of_lt hw]
  simp only [if_true]
  rcases B.size_width with hb | hb <;> rw [hb] <;> omega

/-! ## Exceptions -/

/-- What the modelled code throws. `user` is an exception of a user's handler or factory that is none of the
    library's own types; its flag says whether it derives from `std::exception`. -/
inductive Exc where
  | rangeError (what : String)
  | lengthError
  | outOfRange (what : String)
  | runtimeError (what : String)
  | messageDecoderError (what : String)
  | disallowedReplyError (what : String)
  | invalidTypeError
  | invalidSession (what : String)
  | invalidSessionFactory (what : String)
  | sessionCreationError (what : String)
  | sessionNotFound (what : String)
  | disconnectedError (code : Nat) (what : String)
  | handshakeError (code : Nat) (what : String)
  | communicationError (code : Nat) (what : String)
  | user (isStd : Bool)
  /-- Not an exception: an access outside the bytes of a string, which C++ leaves undefined. -/
  | undefinedBehavior
  deriving DecidableEq, Repr

/-- The characters of a raw string inside an exception's text. -/
def Str.text (s : Str) : String := String.ofList (s.map (fun c => Char.ofNat c.toNat))

end Unicomm
