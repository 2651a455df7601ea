import Unicomm.Core.Basic
import Unicomm.Lib.Stuffing

/-!
# `Facade.Detail` — constants and bit flags of the binary format

Models the binary part of `detail/basic_detail.hpp`. The two reserved bytes and the mask form a `Stuffing`
(`binStuffing`); the header flags are read and written bit by bit.
-/

namespace Unicomm

/-- Binary message packet end marker. -/
def binMessageEnd : Byte := 0xff

/-- Binary escape symbol. -/
def binEscapeSym : Byte := 0xfe

/-- Whether character is escape symbol. -/
def isBinEscapeSym (sym : Byte) : Bool := sym == binEscapeSym

/-- Whether character is message end symbol. -/
def isBinEndSym (sym : Byte) : Bool := sym == binMessageEnd

/-- Decode/encode one symbol. -/
def binProcessOne (sym : Byte) : Byte := sym ^^^ 0x40

/-- Current decode engine version. -/
def binVersion : Byte := 0

/-- Minimum binary message header length. -/
def binHeaderMinLen : Nat := 3

/-- The reserved bytes and the mask of the binary format. -/
def binStuffing : Stuffing Byte where
  esc  := binEscapeSym
  fin  := binMessageEnd
  mask := binProcessOne
  mask_mask a := by rw [binProcessOne, binProcessOne, BitVec.xor_assoc, BitVec.xor_self, BitVec.xor_zero]
  esc_ne_fin      := by decide
  mask_esc_ne_fin := by decide
  mask_fin_ne_fin := by decide

/-! ## Header flags -/

/-- Binary message header flags. -/
inductive BinHeaderFlag where
  | idField
  | ridField
  deriving DecidableEq, Repr

/-- The flag's bit. -/
def BinHeaderFlag.bit : BinHeaderFlag → Byte
  | .idField  => 0x01
  | .ridField => 0x02

/-- Gets flag. -/
def getFlag (flagSet : Byte) (flag : BinHeaderFlag) : Bool := (flagSet &&& flag.bit) != 0

/-- Sets flag. -/
def setFlag (flagSet : Byte) (flag : BinHeaderFlag) (value : Bool) : Byte :=
  if value then flagSet ||| flag.bit else flagSet &&& ~~~flag.bit

/-- Whether id field present in header. -/
def isIdExists (flags : Byte) : Bool := getFlag flags .idField

/-- Whether rid field present in header. -/
def isRidExists (flags : Byte) : Bool := getFlag flags .ridField

/-- Sets id flag. -/
def setIdExists (flagSet : Byte) (value : Bool) : Byte := setFlag flagSet .idField value

/-- Sets rid flag. -/
def setRidExists (flagSet : Byte) (value : Bool) : Byte := setFlag flagSet .ridField value

/-- **A flag that was set is read back, and setting it leaves the other flag alone.** -/
theorem getFlag_setFlag (flagSet : Byte) (f g : BinHeaderFlag) (value : Bool) :
    getFlag (setFlag flagSet f value) g = if f = g then value else getFlag flagSet g := by
  revert flagSet
  cases f <;> cases g <;> cases value <;> decide +kernel

end Unicomm
