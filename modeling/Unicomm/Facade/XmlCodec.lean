import Unicomm.Lib.Marked
import Unicomm.Facade.RoundTrip

/-!
# `Facade.XmlCodec` — the XML encoder and decoder

Models `xml_message_encoder.cpp` and `xml_message_decoder.cpp`. A text goes on the wire as it is, followed by
an end marker of four bytes, CR LF CR LF. Unlike the binary format nothing is escaped: a text that holds the
marker is not meant to be sent. The question is what the receiver makes of the texts that do not hold it.

What `perform_decode` does has two halves: it takes a raw message out of the buffer and decodes it
(`nextText`), and it makes a message of the text (`parseText`). Only the first is the format's framing.
-/

namespace Unicomm

variable {B : Build}

namespace MessageDecoder

variable {M : Type} (d : MessageDecoder M)

/-- The first half of `perform_decode`: `find_raw_message`, then `decode_raw_message` on what was found and
    taken out of the buffer. The second component is the buffer afterwards. -/
def nextText (buffer : Str) : Option (Except Exc Str) × Str :=
  let bounds := d.findRawMessage buffer
  if bounds.first ≠ bounds.last then
    (some (d.decodeRawMessage ((buffer.take bounds.last).drop bounds.first)),
      buffer.take bounds.first ++ buffer.drop bounds.last)
  else
    (none, buffer)

/-- The second half: find the name, create the message, let it read the text. -/
def parseText (mStr : Str) : Except Exc M := do
  let mName ← d.getMessageName mStr
  let message ← d.createMessage mName
  if mName ≠ d.name message then
    throw (.messageDecoderError ("Invalid message received [wanted: " ++ (d.name message).text
      ++ ", got: " ++ mName.text ++ "]"))
  d.unserialize message mStr

/-- **`perform_decode` is its two halves.** -/
theorem performDecode_eq_nextText (buffer : Str) :
    d.performDecode buffer
      = (match (d.nextText buffer).1 with
          | none      => .ok none
          | some text => (text.bind d.parseText).map some,
        (d.nextText buffer).2) := by
  unfold performDecode nextText
  by_cases h : (d.findRawMessage buffer).first ≠ (d.findRawMessage buffer).last
  · simp only [if_pos h]
    rfl
  · simp only [if_neg h]

end MessageDecoder

/-! ## Encoder and decoder -/

/-- `xml_message_end`: CR LF CR LF. -/
def xmlMessageEnd : Str := [0x0d, 0x0a, 0x0d, 0x0a]

/-- `xml_message_encoder::encode_raw_message`: append the end marker. A result that does not fit a string
    throws. -/
def xmlEncodeRawMessage (B : Build) (buffer : Str) : Except Exc Str :=
  let out := buffer ++ xmlMessageEnd
  if out.length ≤ B.maxSize then pure out else throw .lengthError

/-- `xml_message_decoder::find_raw_message`: everything up to and including the first end marker. -/
def xmlFindRawMessage (buffer : Str) : Bounds :=
  match Search.find xmlMessageEnd buffer with
  | some pos => ⟨0, pos + xmlMessageEnd.length⟩
  | none     => ⟨buffer.length, buffer.length⟩

/-- `xml_message_decoder::decode_raw_message`: drop the end marker. -/
def xmlDecodeRawMessage (rawMessage : Str) : Except Exc Str :=
  pure (rawMessage.take (rawMessage.length - xmlMessageEnd.length))

/-- What the XML decoder gets from outside: the regular expression that finds a message's name, the factory,
    and the message class. -/
structure XmlMessages (M : Type) where
  getMessageName : Str → Except Exc Str
  factory        : Str → Except Exc M
  name           : M → Str
  unserialize    : M → Str → Except Exc M

namespace XmlMessages

variable {M : Type} (x : XmlMessages M)

/-- `xml_message_decoder`. -/
def decoder : MessageDecoder M where
  findRawMessage   := xmlFindRawMessage
  decodeRawMessage := xmlDecodeRawMessage
  getMessageName   := x.getMessageName
  factory          := x.factory
  name             := x.name
  unserialize      := x.unserialize

/-! ## The receiver -/

/-- The end marker, as the library's. -/
def endMarker : Marker Byte := ⟨xmlMessageEnd, List.cons_ne_nil _ _⟩

/-- No end marker: the buffer is left alone. -/
theorem nextText_open {buffer : Str} (h : Search.find xmlMessageEnd buffer = none) :
    x.decoder.nextText buffer = (none, buffer) := by
  have hbounds : xmlFindRawMessage buffer = ⟨buffer.length, buffer.length⟩ := by
    rw [xmlFindRawMessage, h]
  unfold MessageDecoder.nextText
  simp only [decoder, hbounds, ne_eq, not_true_eq_false, if_false]

/-- The text ends where the end marker is found first, and both leave the buffer. -/
theorem nextText_found {buffer : Str} {pos : Nat} (h : Search.find xmlMessageEnd buffer = some pos) :
    x.decoder.nextText buffer
      = (some (.ok (buffer.take pos)), buffer.drop (pos + xmlMessageEnd.length)) := by
  have hle := Search.find_le h
  have hbounds : xmlFindRawMessage buffer = ⟨0, pos + xmlMessageEnd.length⟩ := by
    rw [xmlFindRawMessage, h]
  have hne : 0 ≠ pos + xmlMessageEnd.length := by
    have hpos := endMarker.length_pos
    simp only [endMarker] at hpos
    omega
  have hraw : xmlDecodeRawMessage (buffer.take (pos + xmlMessageEnd.length)) = .ok (buffer.take pos) := by
    rw [xmlDecodeRawMessage, List.length_take, Nat.min_eq_left hle, Nat.add_sub_cancel, List.take_take,
      Nat.min_eq_left (Nat.le_add_right _ _)]
    rfl
  unfold MessageDecoder.nextText
  simp only [decoder, hbounds, ne_eq, hne, not_false_eq_true, if_true, List.take_zero, List.drop_zero,
    List.nil_append, hraw]

/-- A text has left the buffer, so the buffer is shorter. -/
theorem length_nextText {buffer : Str} {text : Except Exc Str} {rest : Str}
    (h : x.decoder.nextText buffer = (some text, rest)) : rest.length < buffer.length := by
  cases hfind : Search.find xmlMessageEnd buffer with
  | none =>
      rw [x.nextText_open hfind] at h
      cases h
  | some pos =>
      rw [x.nextText_found hfind] at h
      obtain ⟨-, rfl⟩ := Prod.mk.inj h
      rw [List.length_drop]
      exact endMarker.length_drop_lt hfind

/-- Take texts until there is none: the texts, and the buffer that is left. -/
def drainTexts (buffer : Str) : Except Exc (List Str × Str) :=
  match h : x.decoder.nextText buffer with
  | (none, rest)      => .ok ([], rest)
  | (some text, rest) =>
      have := x.length_nextText h
      text.bind (fun t => (drainTexts rest).map (fun p => (t :: p.1, p.2)))
termination_by buffer.length

/-- The receiver: each piece is appended to the buffer, which is then drained. -/
def receiveTexts (buffer : Str) : List Str → Except Exc (List Str × Str)
  | []          => .ok ([], buffer)
  | cut :: cuts =>
      (x.drainTexts (buffer ++ cut)).bind (fun p =>
        (receiveTexts p.2 cuts).map (fun q => (p.1 ++ q.1, q.2)))

/-- Draining cuts the buffer at the end markers. -/
theorem drainTexts_eq (buffer : Str) : x.drainTexts buffer = .ok (endMarker.split buffer) := by
  induction buffer using Marker.split.induct endMarker with
  | case1 buffer h =>
      rw [drainTexts, Marker.split_open h]
      have hnext := x.nextText_open h
      split <;> simp_all
  | case2 buffer pos h _ ih =>
      rw [drainTexts, Marker.split_found h]
      have hnext := x.nextText_found h
      split
      · simp_all
      · rename_i text rest hsome
        obtain ⟨htext, hrest⟩ := Prod.mk.inj (hnext.symm.trans hsome)
        obtain rfl := Option.some.inj htext
        subst hrest
        show (x.drainTexts (buffer.drop (pos + endMarker.seq.length))).map _ = _
        rw [ih]
        rfl

/-- **The cuts do not matter.** A receiver whose buffer holds no end marker takes the texts of the whole
    stream, in order, and keeps its tail. -/
theorem receiveTexts_eq {buffer : Str} (h : Search.find xmlMessageEnd buffer = none) (cuts : List Str) :
    x.receiveTexts buffer cuts = .ok (endMarker.split (buffer ++ cuts.flatten)) := by
  induction cuts generalizing buffer with
  | nil => rw [receiveTexts, List.flatten_nil, List.append_nil, Marker.split_open h]
  | cons cut cuts ih =>
      rw [receiveTexts, drainTexts_eq, List.flatten_cons, ← List.append_assoc,
        Marker.split_append endMarker (buffer ++ cut)]
      show (x.receiveTexts (endMarker.split (buffer ++ cut)).2 cuts).map _ = _
      rw [ih (Marker.find_tail endMarker _)]
      rfl

/-! ## Which texts come back -/

/-- What the encoder puts on the wire is every text with the end marker behind it. -/
theorem encoded_eq {texts outs : List Str} (h : texts.mapM (xmlEncodeRawMessage B) = .ok outs) :
    outs = texts.map (· ++ xmlMessageEnd) := by
  have hall := mapM_eq_ok.mp h
  clear h
  induction hall with
  | nil => rfl
  | @cons text out texts outs htext _ ih =>
      unfold xmlEncodeRawMessage at htext
      simp only at htext
      split at htext
      · cases htext
        rw [List.map_cons, ih]
      · cases htext

/-- **A text without the end marker is clean if it does not end in CR LF.** The marker is CR LF twice, so a
    last CR LF and the first half of the marker are a marker. -/
theorem clean_text {text : Str} (hfree : ¬ xmlMessageEnd <:+: text) :
    endMarker.Clean text ↔ ¬ [0x0d, 0x0a] <:+ text := by
  rw [Marker.clean_iff hfree]
  constructor
  · intro h
    exact h [0x0d, 0x0a] [0x0d, 0x0a] rfl (by decide) (by decide) (by decide)
  · -- of the ways to part the marker only the one in the middle leaves a prefix of it
    rintro h p q hm hp hq hpre
    match p, hm, hp with
    | [_], hm, _ =>
        simp only [endMarker, xmlMessageEnd, List.cons_append, List.nil_append, List.cons.injEq] at hm
        obtain ⟨-, rfl⟩ := hm
        exact absurd hpre (by decide)
    | [_, _], hm, _ =>
        simp only [endMarker, xmlMessageEnd, List.cons_append, List.nil_append, List.cons.injEq] at hm
        obtain ⟨rfl, rfl, -⟩ := hm
        exact h
    | [_, _, _], hm, _ =>
        simp only [endMarker, xmlMessageEnd, List.cons_append, List.nil_append, List.cons.injEq] at hm
        obtain ⟨-, -, -, rfl⟩ := hm
        exact absurd hpre (by decide)
    | _ :: _ :: _ :: _ :: p, hm, _ =>
        simp only [endMarker, xmlMessageEnd, List.cons_append, List.cons.injEq] at hm
        exact absurd (List.append_eq_nil_iff.mp hm.2.2.2.2.symm).2 hq

/-- **XML framing gives the texts back** exactly when none of them ends in CR LF. -/
theorem receiveTexts_encoded (texts outs cuts : List Str)
    (hout : texts.mapM (xmlEncodeRawMessage B) = .ok outs) (hcuts : cuts.flatten = outs.flatten)
    (hfree : ∀ text ∈ texts, ¬ xmlMessageEnd <:+: text) :
    x.receiveTexts [] cuts = .ok (texts, []) ↔ ∀ text ∈ texts, ¬ [0x0d, 0x0a] <:+ text := by
  have hopen : Search.find xmlMessageEnd [] = none := by decide
  have hclean : (∀ text ∈ texts, endMarker.Clean text) ↔ ∀ text ∈ texts, ¬ [0x0d, 0x0a] <:+ text :=
    forall₂_congr (fun text htext => clean_text (hfree text htext))
  rw [x.receiveTexts_eq hopen, List.nil_append, hcuts, encoded_eq hout, ← hclean, ← Marker.split_flatten_iff]
  exact ⟨Except.ok.inj, fun h => congrArg Except.ok h⟩

/-- Messages that keep their text, all under one name. -/
def textMessages : XmlMessages Str := ⟨fun _ => .ok [], fun _ => .ok [], fun _ => [], fun _ text => .ok text⟩

/-- A text that ends in a CR and one that is a LF, received in three pieces that part both end markers. -/
theorem receiveTexts_encoded_cut :
    textMessages.receiveTexts [] [[0x61, 0x0d, 0x0d, 0x0a], [0x0d, 0x0a, 0x0a, 0x0d], [0x0a, 0x0d, 0x0a]]
        = .ok ([[0x61, 0x0d], [0x0a]], [])
      ↔ ∀ text ∈ [[0x61, 0x0d], [0x0a]], ¬ ([0x0d, 0x0a] : Str) <:+ text :=
  have hout : [[0x61, 0x0d], [0x0a]].mapM (xmlEncodeRawMessage .lp64)
      = .ok [[0x61, 0x0d, 0x0d, 0x0a, 0x0d, 0x0a], [0x0a, 0x0d, 0x0a, 0x0d, 0x0a]] := by decide +kernel
  textMessages.receiveTexts_encoded _ _ _ hout (by decide) (by decide)

/-- **A text that ends in CR LF does not come back**: it loses its CR LF, and the one of the end marker stays
    in the buffer. -/
theorem receiveTexts_crlf : ¬ ∀ (texts outs cuts : List Str),
    texts.mapM (xmlEncodeRawMessage .lp64) = .ok outs → cuts.flatten = outs.flatten →
    (∀ text ∈ texts, ¬ xmlMessageEnd <:+: text) →
    textMessages.receiveTexts [] cuts = .ok (texts, []) := by
  intro hclaim
  have hback := hclaim [[0x61, 0x0d, 0x0a]] [[0x61, 0x0d, 0x0a, 0x0d, 0x0a, 0x0d, 0x0a]] _
    (by decide +kernel) rfl (by decide)
  have hopen : Search.find xmlMessageEnd [] = none := by decide
  rw [textMessages.receiveTexts_eq hopen, Except.ok.injEq] at hback
  have hfound : Search.find endMarker.seq [0x61, 0x0d, 0x0a, 0x0d, 0x0a, 0x0d, 0x0a] = some 1 := by decide
  have hframes : endMarker.split [0x61, 0x0d, 0x0a, 0x0d, 0x0a, 0x0d, 0x0a] = ([[0x61]], [0x0d, 0x0a]) := by
    rw [Marker.split_found hfound, Marker.split_open (by decide)]
    rfl
  exact absurd (hframes.symm.trans hback) (by decide)

end XmlMessages

end Unicomm
