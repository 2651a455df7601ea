import Unicomm.Smart.DataRoundTrip

/-!
# `Facade.XmlMessage` — the message that is a `complex`

Models `xml_message.cpp`. The message keeps its identifiers among the numbers of its `complex`, as `unsigned int`, while
an identifier of the library is an `unsigned long`. Where the second is wider, setting an identifier cuts it
(`ids_received` says when that is seen on the other side).
-/

namespace Unicomm

open Smart

variable {B : Build} {int double : Type}

/-- `uint_type` is `unsigned int`; the other two number types are not looked at. -/
abbrev XmlNumbers (int double : Type) : Numbers := ⟨int, BitVec 32, double⟩

/-- `id_property`: `id`. -/
def idProperty : Str := [0x69, 0x64]

/-- `rid_property`: `rid`. -/
def ridProperty : Str := [0x72, 0x69, 0x64]

/-- `xml_message`; the name is that of the class. -/
structure XmlMessage (int double : Type) where
  name     : Str
  priority : Nat
  complex  : Complex (XmlNumbers int double)

namespace XmlMessage

/-- `id_exists(c) ? get_id(c) : undefined_messageid()`, and the same of the reply id. -/
def getMid (prop : Str) (c : Complex (XmlNumbers int double)) : MessageId B :=
  match SortedMap.get? prop (c.simple .uint) with
  | some v => BitVec.setWidth _ (v : BitVec 32)
  | none   => undefinedMessageid

/-- `set_id` and `set_rid`: the identifier becomes an `unsigned int`. -/
def setMid (prop : Str) (mid : MessageId B) (c : Complex (XmlNumbers int double)) : Complex (XmlNumbers int double) :=
  c.setSimple .uint prop (mid.setWidth 32 : BitVec 32)

variable (m : XmlMessage int double)

/-- `id`. -/
def id : MessageId B := getMid idProperty m.complex

/-- `id` with an argument. -/
def setId (mid : MessageId B) : XmlMessage int double := { m with complex := setMid idProperty mid m.complex }

/-- `rid`. -/
def rid : MessageId B := getMid ridProperty m.complex

/-- `rid` with an argument. -/
def setRid (mid : MessageId B) : XmlMessage int double := { m with complex := setMid ridProperty mid m.complex }

variable (L : Lexical (XmlNumbers int double))

/-- `serialize`: the message gets its name, and is written. The second component is the message afterwards. -/
def serialize : Except DataExc Xml × XmlMessage int double :=
  let m := { m with complex := m.complex.setName m.name }
  (m.complex.document L, m)

/-- `unserialize`. -/
def unserialize (l : List Sax) : Except DataExc (XmlMessage int double) := do
  let c ← Handler.unserialize L l
  .ok { m with complex := c }

/-! ## What is received -/

variable {m}

/-- **What a message of the receiver becomes** when it reads what another one has written. -/
theorem unserialize_serialize {X : Xerces} (hX : X.Documented) (m₀ : XmlMessage int double) (h : m.complex.WellFormed)
    (hplain : m.complex.Plain) (hname : PlainText m.name) :
    ∃ doc, (m.serialize L).1 = .ok doc ∧ X.Gives doc (fun l =>
      m₀.unserialize L l = .ok { m₀ with complex := (m.complex.setName m.name).restored m.name }) := by
  have hkey : PlainText nameProperty := by decide
  obtain ⟨doc, hdoc, hgives⟩ := Handler.unserialize_document (L := L) hX
    (h.setSimple .string nameProperty m.name) (hplain.setSimple (k := .string) (v := m.name) L hkey hname)
    (Complex.getName_setName m.complex m.name)
  refine ⟨doc, hdoc, hgives.mono (fun l hread => ?_)⟩
  unfold unserialize
  rw [hread]
  rfl

/-- A number other than the name arrives as it is. -/
theorem getMid_restored {prop : Str} (hprop : prop ≠ nameProperty) (name name' : Str)
    (c : Complex (XmlNumbers int double)) :
    (getMid prop ((c.setName name).restored name') : MessageId B) = getMid prop c := by
  unfold getMid
  rw [Complex.get?_simple_restored hprop]
  rfl

theorem getMid_setMid_self (prop : Str) (mid : MessageId B) (c : Complex (XmlNumbers int double)) :
    (getMid prop (setMid prop mid c) : MessageId B) = (mid.setWidth 32).setWidth _ := by
  unfold getMid setMid
  rw [Complex.simple_setSimple, SortedMap.get?_set_self]

theorem getMid_setMid_of_ne {prop prop' : Str} (h : prop ≠ prop') (mid : MessageId B)
    (c : Complex (XmlNumbers int double)) : (getMid prop (setMid prop' mid c) : MessageId B) = getMid prop c := by
  unfold getMid setMid
  rw [Complex.simple_setSimple, SortedMap.get?_set_of_ne h]

/-- An identifier survives an `unsigned int` if it fits one. -/
theorem setWidth_setWidth_eq_iff (mid : MessageId B) :
    (mid.setWidth 32).setWidth (8 * B.sizeofULong) = mid ↔ mid.toNat < 2 ^ 32 := by
  rw [← BitVec.toNat_inj, BitVec.toNat_setWidth, BitVec.toNat_setWidth]
  constructor
  · intro heq
    rw [← heq]
    exact (Nat.mod_le _ _).trans_lt (Nat.mod_lt _ (by norm_num))
  · intro hlt
    rw [Nat.mod_eq_of_lt hlt, Nat.mod_eq_of_lt mid.isLt]

/-- **The identifiers of a message are received as they were set if and only if both fit an `unsigned int`**, and a
    plain message is always received, as long as the parser reports the text of every item in one piece. -/
theorem ids_received {X : Xerces} (hX : X.Documented) (m m₀ : XmlMessage int double) (mid rid : MessageId B)
    (h : m.complex.WellFormed) (hplain : m.complex.Plain) (hname : PlainText m.name) :
    ∃ doc, (((m.setId mid).setRid rid).serialize L).1 = .ok doc ∧ X.Gives doc (fun l =>
      ∃ m', m₀.unserialize L l = .ok m' ∧
        ((m'.id = mid ∧ m'.rid = rid) ↔ (mid.toNat < 2 ^ 32 ∧ rid.toNat < 2 ^ 32))) := by
  have hwf : ((m.setId mid).setRid rid).complex.WellFormed :=
    (h.setSimple .uint idProperty _).setSimple .uint ridProperty _
  have hplain' : ((m.setId mid).setRid rid).complex.Plain :=
    (hplain.setSimple (k := .uint) L (by decide) (L.print_plain (by decide) _)).setSimple (k := .uint) L (by decide)
      (L.print_plain (by decide) _)
  obtain ⟨doc, hdoc, hgives⟩ := unserialize_serialize L hX m₀ hwf hplain' hname
  refine ⟨doc, hdoc, hgives.mono (fun l hread => ⟨_, hread, ?_⟩)⟩
  let received : XmlMessage int double :=
    { m₀ with complex := (((m.setId mid).setRid rid).complex.setName m.name).restored m.name }
  have hid : (received.id : MessageId B) = (mid.setWidth 32).setWidth _ := by
    unfold id
    rw [getMid_restored (by decide)]
    exact (getMid_setMid_of_ne (by decide) rid _).trans (getMid_setMid_self idProperty mid _)
  have hrid : (received.rid : MessageId B) = (rid.setWidth 32).setWidth _ := by
    unfold XmlMessage.rid
    rw [getMid_restored (by decide)]
    exact getMid_setMid_self ridProperty rid _
  exact and_congr (by rw [← setWidth_setWidth_eq_iff, ← hid]; rfl) (by rw [← setWidth_setWidth_eq_iff, ← hrid]; rfl)

/-- On Linux an identifier of five bytes arrives as another one. -/
theorem ids_received_wide :
    ∃ (doc : Xml) (l : List Sax) (m' : XmlMessage (BitVec 32) (BitVec 32)), Xerces.any.reports doc (.ok l)
      ∧ unserialize ⟨Handler.nameA, 0, .empty⟩ Handler.decimal l = .ok m'
      ∧ ¬ (m'.id = (0x100000007 : MessageId .lp64) ∧ m'.rid = (9 : MessageId .lp64)) := by
  let m : XmlMessage (BitVec 32) (BitVec 32) := ⟨Handler.nameA, 0, .empty⟩
  let mid : MessageId .lp64 := 0x100000007
  let rid : MessageId .lp64 := 9
  have hname : PlainText Handler.nameA := by decide
  obtain ⟨doc, hdoc, hgives⟩ :=
    ids_received Handler.decimal Xerces.any_documented m m mid rid .empty .empty hname
  have hplain : doc.Plain := by
    have hobject : (((m.setId mid).setRid rid).complex.setName m.name).Plain := by
      refine .setSimple (.setSimple (.setSimple .empty Handler.decimal ?_ ?_) Handler.decimal ?_ ?_)
        Handler.decimal ?_ ?_
      all_goals decide +kernel
    obtain ⟨doc', hdoc', hplain, -⟩ := hobject.document (L := Handler.decimal) (Complex.getName_setName _ _)
    cases hdoc.symm.trans hdoc'
    exact hplain
  have hreport : Xerces.any.reports doc (.ok (doc.events ++ [])) := ⟨_, rfl, reported_events _ hplain .nil⟩
  obtain ⟨m', hm', hids⟩ := hgives.of_reports hreport (reported_events _ hplain .nil)
  exact ⟨doc, _, m', hreport, hm', fun hsame => absurd (hids.mp hsame).1 (by decide)⟩

end XmlMessage

end Unicomm
