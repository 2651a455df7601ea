import Unicomm.Core.Basic
import Unicomm.Lib.Decimal
import Unicomm.Lib.SortedMap

/-!
# `Smart.Complex` — the data an XML message is made of

Models `smart::data::complex` and `smart::data::array` of the vendored library (`complex.hpp`, `complex_types.hpp`,
`complex_aux.hpp`): a record of named properties, some of them numbers and texts, some records again, some arrays of
either. The class has one `std::map` for every type and picks it with a template; here the four simple types are the
values of `Simple`, and the template is an argument.

How a number is written and read is `boost::lexical_cast`, which is not part of the repository: `Lexical` says what is
relied on.
-/

namespace Unicomm

namespace Smart

/-- The simple types. -/
inductive Simple where
  | int
  | uint
  | double
  | string
  deriving DecidableEq, Repr

/-- `int_type`, `uint_type` and `double_type`. -/
structure Numbers where
  int    : Type
  uint   : Type
  double : Type

/-- The values of a simple type. -/
abbrev Numbers.Val (V : Numbers) : Simple → Type
  | .int    => V.int
  | .uint   => V.uint
  | .double => V.double
  | .string => Str

/-- **`complex`.** The fields are its maps: the simple properties and the arrays of every simple type, the complex
    properties and the arrays of them. -/
inductive Complex (V : Numbers) where
  | mk (simple : (k : Simple) → List (Str × V.Val k)) (arrays : (k : Simple) → List (Str × List (V.Val k)))
      (complexes : List (Str × Complex V)) (complexArrays : List (Str × List (Complex V)))

/-- What the library throws. -/
inductive DataExc where
  | invalidPropertyError (what : String)
  | badLexicalCast
  | runtimeError (what : String)
  | serializerError (what : String)
  | parserError (what : String)
  | undefinedBehavior
  deriving DecidableEq, Repr

/-- `…_type_name`, which is also the tag of a property of that type: `int`, `uint`, `double` and `string`. -/
def Simple.typeName : Simple → Str
  | .int    => [0x69, 0x6e, 0x74]
  | .uint   => [0x75, 0x69, 0x6e, 0x74]
  | .double => [0x64, 0x6f, 0x75, 0x62, 0x6c, 0x65]
  | .string => [0x73, 0x74, 0x72, 0x69, 0x6e, 0x67]

/-- `complex_type_name`: `complex`. -/
def complexTypeName : Str := [0x63, 0x6f, 0x6d, 0x70, 0x6c, 0x65, 0x78]

/-- `name_property`, and the attribute `name_attr`: `name`. -/
def nameProperty : Str := [0x6e, 0x61, 0x6d, 0x65]

/-- The text of `invalid_property_error`. -/
def invalidProperty (typeName name : Str) : DataExc :=
  .invalidPropertyError
    ("Invalid property has been requested [type: " ++ typeName.text ++ ", name: " ++ name.text ++ "]")

namespace Complex

variable {V : Numbers}

/-- `get_collection` of the simple types. -/
def simple : Complex V → (k : Simple) → List (Str × V.Val k)
  | .mk simple _ _ _ => simple

/-- `get_collection` of the arrays of a simple type. -/
def arrays : Complex V → (k : Simple) → List (Str × List (V.Val k))
  | .mk _ arrays _ _ => arrays

/-- `get_collection` of the complex properties. -/
def complexes : Complex V → List (Str × Complex V)
  | .mk _ _ complexes _ => complexes

/-- `get_collection` of the arrays of complex objects. -/
def complexArrays : Complex V → List (Str × List (Complex V))
  | .mk _ _ _ complexArrays => complexArrays

/-- The default constructor. -/
def empty : Complex V := .mk (fun _ => []) (fun _ => []) [] []

/-! ## `set_property` -/

/-- `set_property` of a simple type. -/
def setSimple (c : Complex V) (k : Simple) (name : Str) (v : V.Val k) : Complex V :=
  .mk (Function.update c.simple k (SortedMap.set name v (c.simple k))) c.arrays c.complexes c.complexArrays

/-- `set_property` of an array of a simple type. -/
def setArray (c : Complex V) (k : Simple) (name : Str) (vs : List (V.Val k)) : Complex V :=
  .mk c.simple (Function.update c.arrays k (SortedMap.set name vs (c.arrays k))) c.complexes c.complexArrays

/-- `set_property` of a complex object. -/
def setComplex (c : Complex V) (name : Str) (d : Complex V) : Complex V :=
  .mk c.simple c.arrays (SortedMap.set name d c.complexes) c.complexArrays

/-- `set_property` of an array of complex objects. -/
def setComplexArray (c : Complex V) (name : Str) (ds : List (Complex V)) : Complex V :=
  .mk c.simple c.arrays c.complexes (SortedMap.set name ds c.complexArrays)

/-! ## `get_property` -/

/-- `get_property` of a simple type; a property that does not exist throws. -/
def getSimple (c : Complex V) (k : Simple) (name : Str) : Except DataExc (V.Val k) :=
  match SortedMap.get? name (c.simple k) with
  | some v => .ok v
  | none   => .error (invalidProperty k.typeName name)

/-- `get_name`. -/
def getName (c : Complex V) : Except DataExc Str := c.getSimple .string nameProperty

/-- `get_safe_name`: `read_default` of the name, the empty text being the default. -/
def getSafeName (c : Complex V) : Str := (SortedMap.get? nameProperty (c.simple .string)).getD []

/-- `set_name`. -/
def setName (c : Complex V) (name : Str) : Complex V := c.setSimple .string nameProperty name

/-- Setting a property changes one map. -/
theorem simple_setSimple (c : Complex V) (k : Simple) (name : Str) (v : V.Val k) :
    (c.setSimple k name v).simple k = SortedMap.set name v (c.simple k) := Function.update_self _ _ _

theorem getName_setName (c : Complex V) (name : Str) : (c.setName name).getName = .ok name := by
  unfold getName getSimple setName
  rw [simple_setSimple, SortedMap.get?_set_self]

end Complex

/-- A text without control characters, `fe` and `ff`. -/
def PlainText (s : Str) : Prop := ∀ b ∈ s, 0x20 ≤ b ∧ b < 0xfe

instance (s : Str) : Decidable (PlainText s) := inferInstanceAs (Decidable (∀ b ∈ s, 0x20 ≤ b ∧ b < 0xfe))

/-! ## `lexical_cast` -/

/-- How the values of a type are written and read: what is written is a plain text, not empty, and is read back. -/
structure Cast (α : Type) where
  print        : α → Str
  parse        : Str → Option α
  parse_print  : ∀ v, parse (print v) = some v
  print_ne_nil : ∀ v, print v ≠ []
  print_plain  : ∀ v, PlainText (print v)

/-- `lexical_cast` of a string to a value, which throws when it is none. -/
def Cast.read {α : Type} (C : Cast α) (s : Str) : Except DataExc α :=
  match C.parse s with
  | some v => .ok v
  | none   => .error .badLexicalCast

theorem Cast.read_print {α : Type} (C : Cast α) (v : α) : C.read (C.print v) = .ok v := by
  unfold Cast.read
  rw [C.parse_print]

/-- `lexical_cast` of an `unsigned int`: its decimal digits. -/
def Cast.uint32 : Cast (BitVec 32) where
  print v := (Decimal.write v.toNat).map (BitVec.ofNat 8)
  parse s := (Decimal.read (s.map BitVec.toNat)).bind (fun n => if n < 2 ^ 32 then some (BitVec.ofNat 32 n) else none)
  parse_print v := by
    have hbytes : ((Decimal.write v.toNat).map (BitVec.ofNat 8)).map BitVec.toNat = Decimal.write v.toNat := by
      rw [List.map_map]
      refine (List.map_congr_left (fun c hc => ?_)).trans (List.map_id _)
      have hlt := (Decimal.digit_of_mem_write hc).2
      exact (BitVec.toNat_ofNat c 8).trans (Nat.mod_eq_of_lt (by simp only [Decimal.zero] at hlt; omega))
    rw [hbytes, Decimal.read_write]
    change (if v.toNat < 2 ^ 32 then _ else _) = _
    rw [if_pos v.isLt, BitVec.ofNat_toNat, BitVec.setWidth_eq]
  print_ne_nil v h := Decimal.write_ne_nil v.toNat (List.map_eq_nil_iff.mp h)
  print_plain v b hb := by
    obtain ⟨c, hc, rfl⟩ := List.mem_map.mp hb
    obtain ⟨hle, hlt⟩ := Decimal.digit_of_mem_write hc
    simp only [Decimal.zero] at hle hlt
    have hbyte : (BitVec.ofNat 8 c).toNat = c := (BitVec.toNat_ofNat c 8).trans (Nat.mod_eq_of_lt (by omega))
    constructor
    · show 32 ≤ (BitVec.ofNat 8 c).toNat
      omega
    · show (BitVec.ofNat 8 c).toNat < 254
      omega

/-- `lexical_cast` to and from `std::string` for the three number types. -/
structure Lexical (V : Numbers) where
  int    : Cast V.int
  uint   : Cast V.uint
  double : Cast V.double

namespace Lexical

variable {V : Numbers} (L : Lexical V)

/-- `lexical_cast<string>`; a string is taken as it is. -/
def print : (k : Simple) → V.Val k → Str
  | .int    => L.int.print
  | .uint   => L.uint.print
  | .double => L.double.print
  | .string => id

/-- `lexical_cast` of a string; a string is taken as it is. -/
def parse : (k : Simple) → Str → Except DataExc (V.Val k)
  | .int    => L.int.read
  | .uint   => L.uint.read
  | .double => L.double.read
  | .string => .ok

/-- What is written is read back. -/
theorem parse_print (k : Simple) (v : V.Val k) : L.parse k (L.print k v) = .ok v := by
  cases k with
  | int    => exact L.int.read_print v
  | uint   => exact L.uint.read_print v
  | double => exact L.double.read_print v
  | string => rfl

/-- Only a text can be written as one that is not plain. -/
theorem print_plain {k : Simple} (hk : k ≠ .string) (v : V.Val k) : PlainText (L.print k v) := by
  cases k with
  | int    => exact L.int.print_plain v
  | uint   => exact L.uint.print_plain v
  | double => exact L.double.print_plain v
  | string => exact absurd rfl hk

/-- Only a text can be written as nothing. -/
theorem print_ne_nil {k : Simple} (hk : k ≠ .string) (v : V.Val k) : L.print k v ≠ [] := by
  cases k with
  | int    => exact L.int.print_ne_nil v
  | uint   => exact L.uint.print_ne_nil v
  | double => exact L.double.print_ne_nil v
  | string => exact absurd rfl hk

end Lexical

end Smart

end Unicomm
