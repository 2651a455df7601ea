import Mathlib.Data.List.TakeWhile
import Unicomm.Smart.Complex

/-!
# `Smart.Xml` — documents, and what a parser reports of them

The library builds a document for the writer of Xerces-C and gets callbacks from its parser. Neither of the two is part
of the repository: `Xerces` is what may come of writing a document and parsing the text, and `Xerces.Documented` is
what is relied on. A document that XML can carry as it is (`Xml.Plain`) is written and parsed without an error, and
what comes is a report of it (`Reported`): its tags in order, and each of its texts in as many pieces as the parser
likes.

The texts of a document are in `XMLCh`. Every `char` is converted to one and back (`xercesc_string.hpp`), and the
document gets the C string of the result, which ends at the first zero (`domString`).
-/

namespace Unicomm

namespace Smart

/-! ## Strings -/

/-- `XMLCh`: a unit of UTF-16. -/
abbrev XmlCh := BitVec 16

/-- `xml_string_type`. -/
abbrev XmlStr := List XmlCh

/-- `std_to_xml_string`: `char` by `char`, so one from `0x80` on, being negative, becomes a unit from `0xff80` on. -/
def stdToXmlString (s : Str) : XmlStr := s.map (BitVec.signExtend 16)

/-- `xml_to_std_string`: the low byte of every unit. -/
def xmlToStdString (s : XmlStr) : Str := s.map (BitVec.setWidth 8)

/-- `std_to_xml_string(s).c_str()`, as the DOM takes it. -/
def domString (s : Str) : XmlStr := (stdToXmlString s).takeWhile (fun c => c ≠ 0)

/-- A character that a document carries as it is: XML allows it, and it is none of the control characters that are
    white space, which a parser may change. -/
def XmlCh.Plain (c : XmlCh) : Prop := 0x20 ≤ c ∧ c ≤ 0xd7ff ∨ 0xe000 ≤ c ∧ c ≤ 0xfffd

instance (c : XmlCh) : Decidable c.Plain :=
  inferInstanceAs (Decidable (0x20 ≤ c ∧ c ≤ 0xd7ff ∨ 0xe000 ≤ c ∧ c ≤ 0xfffd))

/-- The way to `XMLCh` and back loses nothing. -/
theorem xmlToStdString_stdToXmlString (s : Str) : xmlToStdString (stdToXmlString s) = s := by
  have hbyte : ∀ b : Byte, (b.signExtend 16).setWidth 8 = b := by decide +kernel
  unfold xmlToStdString stdToXmlString
  rw [List.map_map]
  exact (List.map_congr_left (fun b _ => hbyte b)).trans (List.map_id s)

/-- These are the bytes whose characters a document carries. -/
theorem XmlCh.plain_signExtend (b : Byte) : XmlCh.Plain (b.signExtend 16) ↔ 0x20 ≤ b ∧ b < 0xfe := by
  revert b
  decide +kernel

theorem PlainText.plain {s : Str} (h : PlainText s) : ∀ c ∈ stdToXmlString s, c.Plain := by
  intro c hc
  obtain ⟨b, hb, rfl⟩ := List.mem_map.mp hc
  exact (XmlCh.plain_signExtend b).mpr (h b hb)

/-- A plain text has no zero that would end it. -/
theorem domString_eq {s : Str} (h : PlainText s) : domString s = stdToXmlString s := by
  refine List.takeWhile_eq_self_iff.mpr (fun c hc => decide_eq_true ?_)
  rintro rfl
  exact absurd (h.plain 0 hc) (by decide)

/-- **A plain text goes into the document as a whole**, and out of it. -/
theorem xmlToStdString_domString {s : Str} (h : PlainText s) : xmlToStdString (domString s) = s := by
  rw [domString_eq h, xmlToStdString_stdToXmlString]

theorem domString_plain {s : Str} (h : PlainText s) : ∀ c ∈ domString s, c.Plain := by
  rw [domString_eq h]
  exact h.plain

/-- Any other text is cut at its first zero. -/
theorem xmlToStdString_domString_eq (s : Str) : xmlToStdString (domString s) = s.takeWhile (fun b => b ≠ 0) := by
  have hbyte : ∀ b : Byte, b.signExtend 16 ≠ 0 ↔ b ≠ 0 := by decide +kernel
  have hcut : domString s = stdToXmlString (s.takeWhile (fun b => b ≠ 0)) := by
    unfold domString stdToXmlString
    rw [List.takeWhile_map]
    congr 2
    funext b
    exact decide_eq_decide.mpr (hbyte b)
  rw [hcut, xmlToStdString_stdToXmlString]

theorem domString_eq_nil_iff {s : Str} (h : PlainText s) : domString s = [] ↔ s = [] := by
  rw [domString_eq h]
  exact List.map_eq_nil_iff

/-! ## Documents -/

/-- The attributes of an element. -/
abbrev Attributes := List (XmlStr × XmlStr)

/-- The document that is built. -/
inductive Xml where
  | text (s : XmlStr)
  | element (tag : XmlStr) (attrs : Attributes) (children : List Xml)
  deriving Repr

/-- The callbacks of the parser that the content handler overrides. -/
inductive Sax where
  | startElement (tag : XmlStr) (attrs : Attributes)
  | characters (s : XmlStr)
  | endElement (tag : XmlStr)
  deriving DecidableEq, Repr

namespace Xml

mutual

/-- The callbacks for a document with every text in one piece. Nothing is reported of an empty text. -/
def events : Xml → List Sax
  | .text s                     => if s = [] then [] else [.characters s]
  | .element tag attrs children => .startElement tag attrs :: (eventsAll children ++ [.endElement tag])

/-- The callbacks for the children of an element. -/
def eventsAll : List Xml → List Sax
  | []      => []
  | x :: xs => x.events ++ eventsAll xs

end

@[simp] theorem eventsAll_append (xs ys : List Xml) : eventsAll (xs ++ ys) = eventsAll xs ++ eventsAll ys := by
  induction xs with
  | nil => rfl
  | cons x xs ih =>
      change x.events ++ eventsAll (xs ++ ys) = (x.events ++ eventsAll xs) ++ eventsAll ys
      rw [ih, List.append_assoc]

/-- A name of XML: lower case letters will do. -/
def IsName (s : XmlStr) : Prop := s ≠ [] ∧ ∀ c ∈ s, 0x61 ≤ c ∧ c ≤ 0x7a

/-- A word of lower case letters is a name in the document, too. -/
theorem isName_domString {s : Str} (hne : s ≠ []) (h : ∀ b ∈ s, 0x61 ≤ b ∧ b ≤ 0x7a) : IsName (domString s) := by
  have hletter : ∀ b : Byte, 0x61 ≤ b ∧ b ≤ 0x7a →
      (0x20 ≤ b ∧ b < 0xfe) ∧ 0x61 ≤ b.signExtend 16 ∧ b.signExtend 16 ≤ 0x7a := by decide +kernel
  have hplain : PlainText s := fun b hb => (hletter b (h b hb)).1
  refine ⟨fun hnil => hne ((domString_eq_nil_iff hplain).mp hnil), fun c hc => ?_⟩
  rw [domString_eq hplain] at hc
  obtain ⟨b, hb, rfl⟩ := List.mem_map.mp hc
  exact (hletter b (h b hb)).2

/-- Attributes that are carried as they are. -/
def PlainAttributes (attrs : Attributes) : Prop :=
  (attrs.map Prod.fst).Nodup ∧ ∀ a ∈ attrs, IsName a.1 ∧ ∀ c ∈ a.2, c.Plain

/-- **An element that is carried as it is**: with plain attributes, and a plain text or such elements in it. -/
inductive Plain : Xml → Prop where
  | leaf {tag attrs s} :
      IsName tag → PlainAttributes attrs → (∀ c ∈ s, XmlCh.Plain c) → Plain (.element tag attrs [.text s])
  | node {tag attrs children} :
      IsName tag → PlainAttributes attrs → (∀ x ∈ children, Plain x) → Plain (.element tag attrs children)

end Xml

theorem eventsAll_singleton (x : Xml) : Xml.eventsAll [x] = x.events := List.append_nil _

theorem eventsAll_element (tag : XmlStr) (attrs : Attributes) (children : List Xml) :
    Xml.eventsAll [.element tag attrs children]
      = .startElement tag attrs :: (Xml.eventsAll children ++ [.endElement tag]) := List.append_nil _

/-! ## Reports -/

/-- **A report of elements**: their tags in order, and every text in pieces none of which is empty. Only elements with
    one of certain tags have their text in more than one piece. -/
inductive Reported (cut : XmlStr → Prop) : List Xml → List Sax → Prop where
  | nil : Reported cut [] []
  | leaf {tag attrs s xs m} (pieces : List XmlStr) :
      pieces.flatten = s → (∀ p ∈ pieces, p ≠ []) → (cut tag ∨ pieces.length ≤ 1) → Reported cut xs m →
      Reported cut (.element tag attrs [.text s] :: xs)
        (.startElement tag attrs :: (pieces.map .characters ++ .endElement tag :: m))
  | node {tag attrs children l xs m} :
      Reported cut children l → Reported cut xs m →
      Reported cut (.element tag attrs children :: xs) (.startElement tag attrs :: (l ++ .endElement tag :: m))

/-- A report may have every text in one piece. -/
theorem reported_events (cut : XmlStr → Prop) {x : Xml} (h : x.Plain) {xs : List Xml} {m : List Sax}
    (hm : Reported cut xs m) : Reported cut (x :: xs) (x.events ++ m) := by
  induction h generalizing xs m with
  | @leaf tag attrs s _ _ _ =>
      have hevents : Xml.eventsAll [.text s] = (if s = [] then [] else [s]).map .characters := by
        rw [eventsAll_singleton]
        unfold Xml.events
        split <;> rfl
      have hleaf : Reported cut (.element tag attrs [.text s] :: xs)
          (.startElement tag attrs :: ((if s = [] then [] else [s]).map .characters ++ .endElement tag :: m)) := by
        refine .leaf _ ?_ ?_ (.inr ?_) hm
        · split
          · next hs => exact hs.symm
          · exact List.append_nil s
        · intro p hp
          split at hp
          · cases hp
          · next hs => exact List.mem_singleton.mp hp ▸ hs
        · split
          · exact Nat.zero_le 1
          · exact Nat.le_refl 1
      rw [← hevents] at hleaf
      simpa [Xml.events] using hleaf
  | @node tag attrs children _ _ hchildren ih =>
      have hchildren : Reported cut children (Xml.eventsAll children) := by
        clear hm hchildren
        induction children with
        | nil => exact .nil
        | cons y ys ihys => exact ih y List.mem_cons_self (ihys (fun x hx => ih x (List.mem_cons_of_mem y hx)))
      have hnode : Reported cut (.element tag attrs children :: xs)
          (.startElement tag attrs :: (Xml.eventsAll children ++ .endElement tag :: m)) := .node hchildren hm
      simpa [Xml.events] using hnode

/-! ## Xerces-C -/

/-- **Xerces-C**: what may come of writing a document and parsing the text, which is the callbacks of the parser or the
    exception that the writer or the parser ends in. -/
structure Xerces where
  reports : Xml → Except DataExc (List Sax) → Prop

/-- What is documented: of a plain document something comes, and only reports of it. -/
structure Xerces.Documented (X : Xerces) : Prop where
  total    : ∀ doc : Xml, doc.Plain → ∃ r, X.reports doc r
  reported : ∀ (doc : Xml) r, doc.Plain → X.reports doc r → ∃ l, r = .ok l ∧ Reported (fun _ => True) [doc] l

/-- A writer and a parser that do whatever is documented. -/
def Xerces.any : Xerces := ⟨fun doc r => ∃ l, r = .ok l ∧ Reported (fun _ => True) [doc] l⟩

theorem Xerces.any_documented : Xerces.any.Documented where
  total doc hdoc := by
    have hreport := reported_events (fun _ => True) hdoc .nil
    exact ⟨_, _, rfl, hreport⟩
  reported _ _ _ hr := hr

end Smart

end Unicomm
