import Mathlib.Logic.Function.Basic
import Unicomm.Core.MessageDecoderBase
import Unicomm.Http.RoundTrip
import Unicomm.Lib.Decimal
import Unicomm.Lib.Machine

/-!
# `Http.MessageDecoder` — finding the messages in what comes in

Models `http_message_decoder.cpp`. The decoder remembers how long the message is whose header it has parsed, and
the size of the buffer at its last try. It is one object of the configuration, so **all connections share it**:
`Shared` has their buffers and the one decoder. The decoder has no lock. A try is one step here, so what two threads
make of it that are inside it at the same time is left out.

While no connection comes between two tries of another one on the same message, and every message has a header with
its true length (`Framed`), each connection is given its own messages, however they come in (`decoded_in_order`);
otherwise the bytes of one may be cut where a message of another one ends (`decoded_disturbed`).
-/

namespace Unicomm

namespace Http

open Search

/-- `header::content_length`: `Content-Length`. -/
def contentLength : Str := [0x43, 0x6f, 0x6e, 0x74, 0x65, 0x6e, 0x74, 0x2d, 0x4c, 0x65, 0x6e, 0x67, 0x74, 0x68]

/-! ## The decoder -/

/-- `message_decoder`. -/
structure Decoder where
  length      : Nat
  lastBufSize : Nat
  deriving DecidableEq, Repr

namespace Decoder

/-- A decoder that waits for a message. -/
def rest : Decoder := ⟨0, 0⟩

variable (B : Build) (readSize : Str → Option Nat) (isServer : Bool)

/-- `finish_decode`. -/
def finishDecode (d : Decoder) : Bounds × Decoder := (⟨0, d.length⟩, rest)

/-- No message: both bounds are the end of the buffer. -/
def nothing (buffer : Str) : Bounds := ⟨buffer.length, buffer.length⟩

/-- Whether the message is complete. -/
def checkLength (d : Decoder) (buffer : Str) : Bounds × Decoder :=
  if d.length ≤ buffer.length then d.finishDecode else (nothing buffer, d)

/-- The header is there; it ends at `i`. A request whose length is not known has no body, a response ends when the
    connection does. -/
def parsed (d : Decoder) (buffer : Str) (i : Nat) (headers : Headers) : Except HttpExc Bounds × Decoder :=
  match headers.lookup contentLength with
  | some v =>
      match readSize v with
      | none   => (.error .badLexicalCast, d)
      | some 0 => (finishDecode { d with length := i + headBodySeparator.length }).map .ok id
      | some n =>
          (checkLength { d with length := (n + (i + headBodySeparator.length)) % 2 ^ B.sizeBits } buffer).map .ok id
  | none   =>
      if isServer then
        if i + headBodySeparator.length = buffer.length then
          (finishDecode { d with length := buffer.length }).map .ok id
        else (.error (.lengthRequiredError (contentLength.text ++ " header not found, but required")), d)
      else (.ok (nothing buffer), { d with length := 2 ^ B.sizeBits - 1 })

/-- `find_raw_message`. A buffer of the same size as before is not looked at. -/
def findRawMessage (d : Decoder) (buffer : Str) : Except HttpExc Bounds × Decoder :=
  if d.lastBufSize = buffer.length then (.ok (nothing buffer), d)
  else
    let d := { d with lastBufSize := buffer.length }
    if d.length = 0 then
      match find headBodySeparator buffer with
      | none   => (.ok (nothing buffer), d)
      | some i =>
          match parseHeader (buffer.take i) with
          | .error e    => (.error e, d)
          | .ok headers => d.parsed B readSize isServer buffer i headers
    else (d.checkLength buffer).map .ok id

/-- `perform_decode`, up to the raw message that is taken out of the buffer. -/
def takeRawMessage (d : Decoder) (buffer : Str) : Except HttpExc (Option Str) × Str × Decoder :=
  match d.findRawMessage B readSize isServer buffer with
  | (.error e, d)   => (.error e, buffer, d)
  | (.ok bounds, d) =>
      if bounds.first ≠ bounds.last then
        (.ok (some ((buffer.take bounds.last).drop bounds.first)),
          buffer.take bounds.first ++ buffer.drop bounds.last, d)
      else (.ok none, buffer, d)

end Decoder

/-! ## Messages of known length -/

variable {B : Build} {readSize : Str → Option Nat} {isServer : Bool}

/-- **A message by itself**: a header that says how long the data behind it is. -/
def Framed (B : Build) (readSize : Str → Option Nat) (raw : Str) : Prop :=
  ∃ i headers v n, find headBodySeparator raw = some i ∧ parseHeader (raw.take i) = .ok headers
    ∧ headers.lookup contentLength = some v ∧ readSize v = some n
    ∧ raw.length = i + headBodySeparator.length + n ∧ raw.length < 2 ^ B.sizeBits

theorem Framed.length_pos {raw : Str} (h : Framed B readSize raw) : 0 < raw.length := by
  obtain ⟨i, headers, v, n, -, -, -, -, hlen, -⟩ := h
  have hsep : headBodySeparator.length = 4 := rfl
  omega

/-- **A written message is one**, if a header says how long its data is. -/
theorem framed_serialize {φ : Type} {F : FirstStr φ} {m : Message φ} {line v : Str} (h : m.Clean F line)
    (hlookup : m.headers.lookup contentLength = some v) (hread : readSize v = some m.data.length)
    (hfits : (m.serialize F).length < 2 ^ B.sizeBits) : Framed B readSize (m.serialize F) := by
  have htext := serialize_eq h
  have hne : m.headers ≠ [] := by
    intro hnil
    rw [hnil] at hlookup
    cases hlookup
  refine ⟨_, ([], trim line) :: m.headers, v, m.data.length, find_serialize h, ?_, hlookup, hread, ?_, hfits⟩
  · rw [htext, List.append_assoc, List.take_left]
    exact parseHeader_headText hne h.oneLine h.headers h.sorted
  · rw [htext, List.length_append, List.length_append]

namespace Decoder

/-- What the decoder remembers is true of the messages that still come, the first of them not being complete yet at
    the last try. -/
structure Fits (d : Decoder) (raws : List Str) (buffer : Str) : Prop where
  length  : d.length = 0 ∨ ∃ raw, raws.head? = some raw ∧ d.length = raw.length
  size_le : d.lastBufSize ≤ buffer.length
  size_lt : ∀ raw, raws.head? = some raw → d.lastBufSize < raw.length

theorem fits_rest {raws : List Str} (h : ∀ raw ∈ raws, Framed B readSize raw) (buffer : Str) :
    rest.Fits raws buffer where
  length          := .inl rfl
  size_le         := Nat.zero_le _
  size_lt raw hraw := (h raw (List.mem_of_head? hraw)).length_pos

/-- Nothing changes for the decoder when more comes in. -/
theorem Fits.append {d : Decoder} {raws : List Str} {buffer : Str} (h : d.Fits raws buffer) (bytes : Str) :
    d.Fits raws (buffer ++ bytes) where
  length  := h.length
  size_le := by
    rw [List.length_append]
    exact h.size_le.trans (Nat.le_add_right _ _)
  size_lt := h.size_lt

variable {d : Decoder} {raw buffer : Str} {raws : List Str}

/-- The message whose length is known is taken once it is complete. -/
theorem checkLength_eq (hd : d.length = raw.length) :
    d.checkLength buffer = if raw.length ≤ buffer.length then (⟨0, raw.length⟩, rest) else (nothing buffer, d) := by
  unfold checkLength finishDecode
  rw [hd]

/-- **The header of a message tells how long it is.** -/
theorem parsed_framed {i : Nat} {headers : Headers} {v : Str} {n : Nat}
    (hlookup : headers.lookup contentLength = some v) (hsize : readSize v = some n)
    (hlen : raw.length = i + headBodySeparator.length + n)
    (hfits : raw.length < 2 ^ B.sizeBits) (hi : i + headBodySeparator.length ≤ buffer.length) :
    d.parsed B readSize isServer buffer i headers
      = (checkLength { d with length := raw.length } buffer).map .ok id := by
  unfold parsed
  rw [hlookup]
  simp only [hsize]
  cases n with
  | zero =>
      have hraw : raw.length ≤ buffer.length := by omega
      unfold checkLength
      rw [if_pos hraw, hlen]
      rfl
  | succ n =>
      have hmod : (n + 1 + (i + headBodySeparator.length)) % 2 ^ B.sizeBits = raw.length := by
        rw [Nat.mod_eq_of_lt (by omega)]
        omega
      show (checkLength { d with length := (n + 1 + (i + headBodySeparator.length)) % 2 ^ B.sizeBits } buffer).map _ _
        = _
      rw [hmod]

/-- A try on a buffer that has grown, when the header was not there before: it is there now, or still not. -/
theorem findRawMessage_open {k : Nat} (hd : d.length = 0) (hsize : d.lastBufSize ≠ buffer.length)
    (hraw : Framed B readSize raw) (hk : find headBodySeparator raw = some k) (hb : buffer <+: raw ++ raws.flatten) :
    (k + headBodySeparator.length ≤ buffer.length → d.findRawMessage B readSize isServer buffer
        = (checkLength ⟨raw.length, buffer.length⟩ buffer).map .ok id)
      ∧ (buffer.length < k + headBodySeparator.length →
          d.findRawMessage B readSize isServer buffer = (.ok (nothing buffer), ⟨0, buffer.length⟩)) := by
  obtain ⟨i, headers, v, n, hfind, hparse, hlookup, hread, hlen, hfits⟩ := hraw
  cases hk.symm.trans hfind
  have hbuffer := find_of_isPrefix hb (find_append hfind raws.flatten)
  unfold findRawMessage
  rw [if_neg hsize]
  simp only [hd, if_true, hbuffer]
  constructor
  · intro hi
    have hhead : buffer.take k = raw.take k := by
      obtain ⟨t, ht⟩ := hb
      have htake : (buffer ++ t).take k = buffer.take k := List.take_append_of_le_length (by omega)
      rw [← htake, ht, List.take_append_of_le_length (by omega)]
    rw [if_pos hi]
    simp only [hhead, hparse]
    exact parsed_framed hlookup hread hlen hfits hi
  · intro hi
    rw [if_neg (by omega)]

/-- What was found out is true of the message. -/
theorem Fits.of_lt (hlt : buffer.length < raw.length) (hd : d.length = 0 ∨ d.length = raw.length)
    (hsize : d.lastBufSize = buffer.length) : d.Fits (raw :: raws) buffer where
  length  := hd.imp_right (fun hlen => ⟨raw, rfl, hlen⟩)
  size_le := hsize.le
  size_lt := by
    intro raw' hraw'
    cases hraw'
    rw [hsize]
    exact hlt

variable (B readSize isServer) in
/-- A try finds the next message when it is complete, and nothing before. -/
structure Tries (d : Decoder) (raw : Str) (raws : List Str) (buffer : Str) : Prop where
  complete   : raw.length ≤ buffer.length → d.findRawMessage B readSize isServer buffer = (.ok ⟨0, raw.length⟩, rest)
  incomplete : buffer.length < raw.length →
    ∃ d', d.findRawMessage B readSize isServer buffer = (.ok (nothing buffer), d') ∧ d'.Fits (raw :: raws) buffer

theorem Tries.of_checkLength {d' : Decoder} (hlen : d'.length = raw.length) (hsize : d'.lastBufSize = buffer.length)
    (heq : d.findRawMessage B readSize isServer buffer = (d'.checkLength buffer).map .ok id) :
    d.Tries B readSize isServer raw raws buffer := by
  rw [checkLength_eq hlen] at heq
  constructor
  · intro hle
    rw [if_pos hle] at heq
    exact heq
  · intro hlt
    rw [if_neg (by omega)] at heq
    exact ⟨d', heq, .of_lt hlt (.inr hlen) hsize⟩

/-- What is given when a length is known: as many bytes, whatever they are. -/
theorem takeRawMessage_known (hd : 0 < d.length) (hsize : d.lastBufSize ≠ buffer.length)
    (hle : d.length ≤ buffer.length) :
    d.takeRawMessage B readSize isServer buffer = (.ok (some (buffer.take d.length)), buffer.drop d.length, rest) := by
  have hfind : d.findRawMessage B readSize isServer buffer = (.ok ⟨0, d.length⟩, rest) := by
    have hzero : ¬ d.length = 0 := by omega
    unfold findRawMessage checkLength
    simp only [if_neg hsize, if_neg hzero, if_pos hle]
    rfl
  unfold takeRawMessage
  rw [hfind]
  show (if 0 ≠ d.length then (Except.ok (some ((buffer.take d.length).drop 0)), buffer.take 0 ++ _, _) else _) = _
  rw [if_pos (by omega)]
  rfl

/-- **A decoder that fits finds the messages.** -/
theorem Fits.tries (h : d.Fits (raw :: raws) buffer) (hraw : Framed B readSize raw)
    (hb : buffer <+: raw ++ raws.flatten) : d.Tries B readSize isServer raw raws buffer := by
  by_cases hsize : d.lastBufSize = buffer.length
  · -- nothing has come in since the last try
    have hlt : buffer.length < raw.length := hsize ▸ h.size_lt raw rfl
    refine ⟨fun hle => by omega, fun _ => ⟨d, ?_, h⟩⟩
    unfold findRawMessage
    rw [if_pos hsize]
  · by_cases hd : d.length = 0
    · obtain ⟨k, -, -, -, hk, -⟩ := id hraw
      obtain ⟨hthere, hmissing⟩ := findRawMessage_open hd hsize hraw hk hb
      have hend := find_le hk
      by_cases hi : k + headBodySeparator.length ≤ buffer.length
      · exact .of_checkLength rfl rfl (hthere hi)
      · exact ⟨fun hle => by omega, fun hlt => ⟨_, hmissing (by omega), .of_lt hlt (.inl rfl) rfl⟩⟩
    · obtain ⟨raw', hraw', hlen⟩ := h.length.resolve_left hd
      cases hraw'
      have hknown : d.findRawMessage B readSize isServer buffer
          = (checkLength { d with lastBufSize := buffer.length } buffer).map .ok id := by
        unfold findRawMessage
        rw [if_neg hsize]
        simp only [hd, if_false]
      have hlen' : (⟨d.length, buffer.length⟩ : Decoder).length = raw.length := hlen
      exact .of_checkLength hlen' rfl hknown

variable (B readSize isServer) in
/-- **What a try on the buffer of a connection gives**: the next message, if it is complete. -/
theorem Fits.takeRawMessage (h : d.Fits raws buffer) (hraws : ∀ raw ∈ raws, Framed B readSize raw)
    (hb : buffer <+: raws.flatten) :
    (∃ raw raws' more, raws = raw :: raws' ∧ buffer = raw ++ more
        ∧ d.takeRawMessage B readSize isServer buffer = (.ok (some raw), more, Decoder.rest))
      ∨ (∀ raw, raws.head? = some raw → buffer.length < raw.length)
        ∧ ∃ d', d.takeRawMessage B readSize isServer buffer = (.ok none, buffer, d') ∧ d'.Fits raws buffer := by
  cases raws with
  | nil =>
      refine .inr ⟨fun _ hraw => (nomatch hraw), d, ?_, h⟩
      have hnil : buffer = [] := List.prefix_nil.mp hb
      subst hnil
      have hsize : d.lastBufSize = 0 := Nat.le_zero.mp h.size_le
      have hfind : d.findRawMessage B readSize isServer [] = (.ok (nothing []), d) := if_pos hsize
      unfold Decoder.takeRawMessage
      rw [hfind]
      rfl
  | cons raw raws =>
      have hraw := hraws raw List.mem_cons_self
      have htries : d.Tries B readSize isServer raw raws buffer := h.tries hraw hb
      -- all of the message is there, or the decoder remembers how far it came
      by_cases hle : raw.length ≤ buffer.length
      · have hpos := hraw.length_pos
        have hmessage : buffer.take raw.length = raw := by
          obtain ⟨t, ht⟩ := hb
          have htake := congrArg (List.take raw.length) ht
          rw [List.take_append_of_le_length hle] at htake
          exact htake.trans List.take_left
        have hbuffer : buffer = raw ++ buffer.drop raw.length := by
          conv_lhs => rw [← List.take_append_drop raw.length buffer, hmessage]
        refine .inl ⟨raw, raws, buffer.drop raw.length, rfl, hbuffer, ?_⟩
        unfold Decoder.takeRawMessage
        rw [htries.complete hle]
        show (if 0 ≠ raw.length then (Except.ok (some ((buffer.take raw.length).drop 0)), buffer.take 0 ++ _, _)
          else _) = _
        rw [if_pos (by omega), hmessage]
        rfl
      · refine .inr ⟨fun raw' hraw' => ?_, ?_⟩
        · cases hraw'
          omega
        · obtain ⟨d', hfind, hfits⟩ := htries.incomplete (by omega)
          refine ⟨d', ?_, hfits⟩
          unfold Decoder.takeRawMessage
          rw [hfind]
          exact if_neg (fun hne => hne rfl)

end Decoder

/-! ## The connections -/

variable {ι : Type} [DecidableEq ι]

/-- The buffers of the connections, and the decoder they share. Tries do not overlap. -/
structure Shared (ι : Type) where
  buffers : ι → Str
  decoder : Decoder
  /-- The connection that used the decoder last. -/
  user    : Option ι

/-- Bytes come in on a connection, or its dispatcher thread tries to decode a message. -/
inductive Act (ι : Type) where
  | receive (i : ι) (bytes : Str)
  | decode (i : ι)
  deriving DecidableEq

/-- All bytes that came in on a connection. -/
def received (i : ι) (as : List (Act ι)) : Str :=
  as.flatMap (fun | .receive j bytes => if j = i then bytes else [] | .decode _ => [])

/-- The messages a connection was given, and the errors that were thrown on it. -/
def results (i : ι) (ys : List (ι × Except HttpExc (Option Str))) : List (Except HttpExc Str) :=
  ys.filterMap (fun
    | (j, .ok (some raw)) => if j = i then some (.ok raw) else none
    | (_, .ok none)       => none
    | (j, .error e)       => if j = i then some (.error e) else none)

namespace Shared

/-- No connection has received anything. -/
def init : Shared ι := ⟨fun _ => [], .rest, none⟩

variable (B : Build) (readSize : Str → Option Nat) (isServer : ι → Bool) (s : Shared ι)

omit [DecidableEq ι] in
/-- A try of a connection. -/
def attempt (i : ι) : Except HttpExc (Option Str) × Str × Decoder :=
  s.decoder.takeRawMessage B readSize (isServer i) (s.buffers i)

/-- One step. -/
def step : Act ι → Option (Shared ι)
  | .receive i bytes => some { s with buffers := Function.update s.buffers i (s.buffers i ++ bytes) }
  | .decode i        => some {
      buffers := Function.update s.buffers i (s.attempt B readSize isServer i).2.1
      decoder := (s.attempt B readSize isServer i).2.2
      user    := some i }

omit [DecidableEq ι] in
/-- What a step gives a connection. -/
def out : Act ι → List (ι × Except HttpExc (Option Str))
  | .receive _ _ => []
  | .decode i    => [(i, (s.attempt B readSize isServer i).1)]

/-- The decoder waits for a message, or the connection has used it last. -/
def Undisturbed : Act ι → Prop
  | .receive _ _ => True
  | .decode i    => s.decoder = .rest ∨ s.user = some i

instance (x : Act ι) : Decidable (s.Undisturbed x) := by
  cases x <;> unfold Undisturbed <;> infer_instance

/-- **How far a connection is**: it was given the first `n` messages, the buffer holds what came in after them, and the
    decoder fits if it is for this connection. -/
structure Progress (raws : List Str) (past : List (Act ι)) (ys : List (ι × Except HttpExc (Option Str)))
    (s : Shared ι) (i : ι) (n : Nat) : Prop where
  given : results i ys = (raws.take n).map .ok
  came  : received i past = (raws.take n).flatten ++ s.buffers i
  fits  : s.Undisturbed (.decode i) → s.decoder.Fits (raws.drop n) (s.buffers i)

variable {B readSize isServer s} {raws : List Str} {past : List (Act ι)} {ys : List (ι × Except HttpExc (Option Str))}
  {i j : ι} {n : Nat}

/-- What is in the buffer is the beginning of the messages that still come. -/
theorem Progress.buffer_isPrefix (h : Progress raws past ys s i n) (hsent : received i past <+: raws.flatten) :
    s.buffers i <+: (raws.drop n).flatten := by
  have hsplit : raws.flatten = (raws.take n).flatten ++ (raws.drop n).flatten := by
    rw [← List.flatten_append, List.take_append_drop]
  rw [h.came, hsplit] at hsent
  exact (List.prefix_append_right_inj _).mp hsent

theorem received_snoc (i : ι) (past : List (Act ι)) (x : Act ι) :
    received i (past ++ [x]) = received i past ++ received i [x] := List.flatMap_append

theorem results_append (i : ι) (ys zs : List (ι × Except HttpExc (Option Str))) :
    results i (ys ++ zs) = results i ys ++ results i zs := List.filterMap_append

theorem received_receive (i j : ι) (bytes : Str) :
    received i [.receive j bytes] = if j = i then bytes else [] := List.append_nil _

/-- Bytes come in. -/
theorem Progress.receive (h : Progress raws past ys s i n) (j : ι) (bytes : Str) :
    Progress raws (past ++ [.receive j bytes]) ys
      { s with buffers := Function.update s.buffers j (s.buffers j ++ bytes) } i n := by
  have hcame : received i (past ++ [.receive j bytes])
      = (raws.take n).flatten ++ Function.update s.buffers j (s.buffers j ++ bytes) i := by
    rw [received_snoc, h.came, received_receive, Function.update_apply]
    by_cases hj : j = i
    · subst hj
      rw [if_pos rfl, if_pos rfl, List.append_assoc]
    · rw [if_neg hj, if_neg (Ne.symm hj), List.append_nil]
  refine ⟨h.given, hcame, fun hu => ?_⟩
  have hfits := h.fits hu
  show s.decoder.Fits (raws.drop n) (Function.update s.buffers j (s.buffers j ++ bytes) i)
  rw [Function.update_apply]
  split
  · next heq =>
      subst heq
      exact hfits.append bytes
  · exact hfits

/-- Another connection tries. -/
theorem Progress.decode_other (h : Progress raws past ys s i n) (hraws : ∀ raw ∈ raws, Framed B readSize raw)
    (hj : j ≠ i) (y : Except HttpExc (Option Str)) (buffer : Str) (d : Decoder) :
    Progress raws (past ++ [.decode j]) (ys ++ [(j, y)]) ⟨Function.update s.buffers j buffer, d, some j⟩ i n := by
  have hbuffer : Function.update s.buffers j buffer i = s.buffers i := Function.update_of_ne (Ne.symm hj) _ _
  refine ⟨?_, ?_, fun hu => ?_⟩
  · have hnone : results i [(j, y)] = [] := by
      cases y with
      | error e => exact congrArg Option.toList (if_neg hj)
      | ok raw? =>
          cases raw? with
          | none => rfl
          | some raw => exact congrArg Option.toList (if_neg hj)
    rw [results_append, h.given, hnone, List.append_nil]
  · rw [received_snoc, h.came]
    show _ ++ [] = _ ++ Function.update s.buffers j buffer i
    rw [List.append_nil, hbuffer]
  · rcases hu with hd | huser
    · have hrest : d = .rest := hd
      subst hrest
      exact Decoder.fits_rest (fun raw hraw => hraws raw (List.mem_of_mem_drop hraw)) _
    · exact absurd (Option.some.inj huser) hj

/-- **The connection itself tries**, not disturbed by another one. -/
theorem Progress.decode (h : Progress raws past ys s i n) (hraws : ∀ raw ∈ raws, Framed B readSize raw)
    (hsent : received i past <+: raws.flatten) (hu : s.Undisturbed (.decode i)) :
    ∃ n', Progress raws (past ++ [.decode i]) (ys ++ [(i, (s.attempt B readSize isServer i).1)])
      ⟨Function.update s.buffers i (s.attempt B readSize isServer i).2.1, (s.attempt B readSize isServer i).2.2, some i⟩
      i n' := by
  have htodo : ∀ raw ∈ raws.drop n, Framed B readSize raw := fun raw hraw => hraws raw (List.mem_of_mem_drop hraw)
  have hcame : received i (past ++ [.decode i]) = (raws.take n).flatten ++ s.buffers i := by
    rw [received_snoc, h.came]
    exact List.append_nil _
  -- a message is taken from the front of the buffer, or the buffer stays and the decoder waits for more
  rcases (h.fits hu).takeRawMessage B readSize (isServer i) htodo (h.buffer_isPrefix hsent) with
    ⟨raw, raws', more, hdrop, hbuffer, hattempt⟩ | ⟨-, d, hattempt, hfits⟩
  · have hattempt' : s.attempt B readSize isServer i = (.ok (some raw), more, .rest) := hattempt
    have htake : raws.take (n + 1) = raws.take n ++ [raw] := by
      rw [List.take_add_one, ← List.head?_drop, hdrop]
      rfl
    rw [hattempt']
    refine ⟨n + 1, ?_, ?_, fun _ => ?_⟩
    · have hone : results i [(i, .ok (some raw))] = [.ok raw] := congrArg Option.toList (if_pos rfl)
      rw [results_append, h.given, htake, List.map_append, hone]
      rfl
    · rw [hcame, htake, hbuffer]
      show _ = _ ++ Function.update s.buffers i more i
      rw [Function.update_self, List.flatten_append, List.append_assoc]
      exact congrArg _ (congrArg (· ++ more) (List.append_nil raw).symm)
    · exact Decoder.fits_rest (fun raw hraw => hraws raw (List.mem_of_mem_drop hraw)) _
  · have hattempt' : s.attempt B readSize isServer i = (.ok none, s.buffers i, d) := hattempt
    rw [hattempt']
    refine ⟨n, ?_, ?_, fun _ => ?_⟩
    · rw [results_append, h.given]
      exact List.append_nil _
    · rw [hcame]
      show _ = _ ++ Function.update s.buffers i (s.buffers i) i
      rw [Function.update_self]
    · show d.Fits (raws.drop n) (Function.update s.buffers i (s.buffers i) i)
      rw [Function.update_self]
      exact hfits

/-- One step, whichever connection moves. -/
theorem Progress.step {msgs : ι → List Str} (hmsgs : ∀ i, ∀ raw ∈ msgs i, Framed B readSize raw) {x : Act ι}
    {s' : Shared ι} (h : ∀ i, ∃ n, Progress (msgs i) past ys s i n)
    (hsent : ∀ i, received i past <+: (msgs i).flatten) (hu : s.Undisturbed x)
    (hs : s.step B readSize isServer x = some s') (i : ι) :
    ∃ n, Progress (msgs i) (past ++ [x]) (ys ++ s.out B readSize isServer x) s' i n := by
  obtain ⟨n, hn⟩ := h i
  cases x with
  | receive j bytes =>
      cases hs
      refine ⟨n, ?_⟩
      show Progress (msgs i) _ (ys ++ []) _ i n
      rw [List.append_nil]
      exact hn.receive j bytes
  | decode j =>
      cases hs
      by_cases hj : j = i
      · subst hj
        exact hn.decode (hmsgs j) (hsent j) hu
      · exact ⟨n, hn.decode_other (hmsgs i) hj _ _ _⟩

/-- How far every connection is at the end of a run. -/
theorem progress_run {msgs : ι → List Str} (hmsgs : ∀ i, ∀ raw ∈ msgs i, Framed B readSize raw) {as : List (Act ι)}
    (h : Machine.run (step B readSize isServer) init as = some s)
    (hguard : Machine.Guarded (step B readSize isServer) Undisturbed init as)
    (hsent : ∀ i, received i as <+: (msgs i).flatten) (i : ι) :
    ∃ n, Progress (msgs i) as (Machine.outputs (step B readSize isServer) (out B readSize isServer) init as) s i n := by
  let inv (past : List (Act ι)) (ys : List (ι × Except HttpExc (Option Str))) (s : Shared ι) : Prop :=
    (∀ i, received i past <+: (msgs i).flatten) → ∀ i, ∃ n, Progress (msgs i) past ys s i n
  have hstep : ∀ past ys s x s', inv past ys s → s.Undisturbed x → s.step B readSize isServer x = some s' →
      inv (past ++ [x]) (ys ++ s.out B readSize isServer x) s' := by
    intro past ys s x s' hi hu hs hsent'
    have hbefore : ∀ i, received i past <+: (msgs i).flatten := by
      intro i
      have hle := hsent' i
      rw [received_snoc] at hle
      exact (List.prefix_append _ _).trans hle
    exact Progress.step hmsgs (hi hbefore) hbefore hu hs
  have hinit : inv [] [] init := fun _ i => ⟨0, rfl, rfl, fun _ => Decoder.fits_rest (hmsgs i) _⟩
  exact Machine.run_outputs_invariant _ inv hstep as [] [] init s hinit hguard h hsent i

/-- **The next try gives the next message exactly if all of it is there.** -/
theorem Progress.next (h : Progress raws past ys s i n) (hraws : ∀ raw ∈ raws, Framed B readSize raw)
    (hsent : received i past <+: raws.flatten) (hu : s.Undisturbed (.decode i)) :
    (s.attempt B readSize isServer i).1
      = .ok ((raws.drop n).head?.filter (fun raw => raw.length ≤ (s.buffers i).length)) := by
  have htodo : ∀ raw ∈ raws.drop n, Framed B readSize raw := fun raw hraw => hraws raw (List.mem_of_mem_drop hraw)
  rcases (h.fits hu).takeRawMessage B readSize (isServer i) htodo (h.buffer_isPrefix hsent) with
    ⟨raw, raws', more, hdrop, hbuffer, hattempt⟩ | ⟨hlt, d, hattempt, -⟩
  · have hattempt' : s.attempt B readSize isServer i = (.ok (some raw), more, .rest) := hattempt
    have hle : raw.length ≤ (s.buffers i).length := by
      rw [hbuffer, List.length_append]
      exact Nat.le_add_right _ _
    rw [hattempt', hdrop, List.head?_cons, Option.filter_some, if_pos (decide_eq_true hle)]
  · have hattempt' : s.attempt B readSize isServer i = (.ok none, s.buffers i, d) := hattempt
    rw [hattempt']
    cases hhead : (raws.drop n).head? with
    | none => rfl
    | some raw =>
        have hno : ¬ decide (raw.length ≤ (s.buffers i).length) = true := by
          simpa using hlt raw hhead
        rw [Option.filter_some, if_neg hno]

/-- **Every connection is given its own messages, in order and complete**, if each has a header that says how long it
    is, however the bytes of all of them come in and whenever their threads try, as long as no connection disturbs
    another one that waits for the rest of a message: then nothing is thrown, what is left in a buffer is what came in
    behind the messages, and the next try gives the next message exactly if all of it is there. -/
theorem decoded_in_order {msgs : ι → List Str} (hmsgs : ∀ i, ∀ raw ∈ msgs i, Framed B readSize raw)
    {as : List (Act ι)} (h : Machine.run (step B readSize isServer) init as = some s)
    (hguard : Machine.Guarded (step B readSize isServer) Undisturbed init as)
    (hsent : ∀ i, received i as <+: (msgs i).flatten) (i : ι) :
    ∃ n, results i (Machine.outputs (step B readSize isServer) (out B readSize isServer) init as)
        = ((msgs i).take n).map .ok
      ∧ received i as = ((msgs i).take n).flatten ++ s.buffers i
      ∧ (s.Undisturbed (.decode i) → (s.attempt B readSize isServer i).1
          = .ok (((msgs i).drop n).head?.filter (fun raw => raw.length ≤ (s.buffers i).length))) := by
  obtain ⟨n, hn⟩ := progress_run hmsgs h hguard hsent i
  exact ⟨n, hn.given, hn.came, hn.next (hmsgs i) (hsent i)⟩

/-- A request of one byte of data. -/
def shortRequest : Message Request := ⟨⟨[0x47], [0x2f]⟩, [(contentLength, [0x31])], [0x58]⟩

/-- `lexical_cast` of a decimal number. -/
def readDecimal (v : Str) : Option Nat := Decimal.read (v.map BitVec.toNat)

theorem shortRequest_clean (what : String) :
    shortRequest.Clean (Request.firstStr what) shortRequest.first.firstLine := by
  apply Request.clean what (by decide) (by decide)
  · intro e he
    cases List.mem_singleton.mp he
    exact ⟨by decide, by decide, by decide, by decide, by decide, by decide⟩
  · exact List.pairwise_singleton _ _

/-- The bytes of it. -/
def shortRaw : Str := shortRequest.serialize (Request.firstStr "")

theorem shortRaw_framed : Framed .lp64 readDecimal shortRaw :=
  framed_serialize (shortRequest_clean "") rfl rfl (by decide)

/-- It comes in in two pieces. -/
def pieces : List (Act Unit) :=
  [.receive () (shortRaw.take 9), .decode (), .receive () (shortRaw.drop 9), .decode ()]

theorem pieces_received : received () pieces <+: [shortRaw].flatten := by decide

theorem pieces_guarded : Machine.Guarded (step .lp64 readDecimal (fun _ => true)) Undisturbed init pieces := by
  refine ⟨trivial, fun s₁ h₁ => ⟨.inl ?_, fun s₂ h₂ => ⟨trivial, fun s₃ h₃ => ⟨.inr ?_, fun _ _ => trivial⟩⟩⟩⟩
  · cases h₁
    rfl
  · cases h₂
    cases h₃
    rfl

theorem decoded_in_order_pieces : ∃ s n, Machine.run (step .lp64 readDecimal (fun _ => true)) init pieces = some s
    ∧ results () (Machine.outputs (step .lp64 readDecimal (fun _ => true)) (out .lp64 readDecimal (fun _ => true)) init
        pieces) = ([shortRaw].take n).map .ok := by
  obtain ⟨s, hs⟩ : ∃ s, Machine.run (step .lp64 readDecimal (fun _ => true)) init pieces = some s := ⟨_, rfl⟩
  have hframed : ∀ _ : Unit, ∀ raw ∈ [shortRaw], Framed .lp64 readDecimal raw := by
    intro _ raw hraw
    cases List.mem_singleton.mp hraw
    exact shortRaw_framed
  obtain ⟨n, hn, -⟩ := decoded_in_order hframed hs pieces_guarded (fun _ => pieces_received) ()
  exact ⟨s, n, hs, hn⟩

/-- **What happens otherwise.** When a connection has the header of a message, but not all of it, another one that tries
    next is given as many bytes of its own as that message has, whatever they are. -/
theorem decoded_disturbed {raw : Str} {k : Nat} {s' : Shared ι} (hd : s.decoder = .rest) (hraw : Framed B readSize raw)
    (hk : find headBodySeparator raw = some k) (hb : s.buffers i <+: raw)
    (hhead : k + headBodySeparator.length ≤ (s.buffers i).length) (hlt : (s.buffers i).length < raw.length)
    (hle : raw.length ≤ (s.buffers j).length) (hs : s.step B readSize isServer (.decode i) = some s') :
    (s'.attempt B readSize isServer j).1 = .ok (some ((s.buffers j).take raw.length)) := by
  have hsep : headBodySeparator.length = 4 := rfl
  have hsize : s.decoder.lastBufSize ≠ (s.buffers i).length := by
    rw [hd]
    show 0 ≠ _
    omega
  have hflat : s.buffers i <+: raw ++ ([] : List Str).flatten := by
    rw [List.flatten_nil, List.append_nil]
    exact hb
  have hlength : s.decoder.length = 0 := by rw [hd]; rfl
  have hfind : s.decoder.findRawMessage B readSize (isServer i) (s.buffers i)
      = (Decoder.checkLength ⟨raw.length, (s.buffers i).length⟩ (s.buffers i)).map .ok id :=
    (Decoder.findRawMessage_open hlength hsize hraw hk hflat).1 hhead
  have hattempt : s.attempt B readSize isServer i = (.ok none, s.buffers i, ⟨raw.length, (s.buffers i).length⟩) := by
    unfold attempt Decoder.takeRawMessage
    rw [hfind, Decoder.checkLength_eq rfl, if_neg (by omega)]
    exact if_neg (fun hne => hne rfl)
  have hs' : s' = ⟨Function.update s.buffers i (s.buffers i), ⟨raw.length, (s.buffers i).length⟩, some i⟩ := by
    have heq := Option.some.inj hs
    rw [hattempt] at heq
    exact heq.symm
  have hother : (s.buffers i).length ≠ (s.buffers j).length := by omega
  have hpos := hraw.length_pos
  rw [hs', Function.update_eq_self]
  exact congrArg Prod.fst (Decoder.takeRawMessage_known hpos hother hle)

/-! ## The messages themselves -/

variable {φ : Type} {F : FirstStr φ} {line : φ → Str}

variable (B readSize F line) in
/-- A clean message that says how long its data is. -/
structure Sendable (m : Message φ) : Prop where
  clean : m.Clean F (line m.first)
  sized : ∃ v, m.headers.lookup contentLength = some v ∧ readSize v = some m.data.length
  fits  : (m.serialize F).length < 2 ^ B.sizeBits

theorem Sendable.framed {m : Message φ} (h : Sendable B readSize F line m) : Framed B readSize (m.serialize F) := by
  obtain ⟨v, hlookup, hread⟩ := h.sized
  exact framed_serialize h.clean hlookup hread h.fits

theorem Sendable.unserialize {m : Message φ} (h : Sendable B readSize F line m) :
    Message.unserialize F (m.serialize F) = .ok (m.received (line m.first)) := by
  have hne : m.headers ≠ [] := by
    intro hnil
    obtain ⟨v, hlookup, -⟩ := h.sized
    rw [hnil] at hlookup
    cases hlookup
  rw [unserialize_serialize h.clean, if_neg hne]

/-- What a connection makes of the raw messages it is given. -/
def unserialized (F : FirstStr φ) (result : Except HttpExc (Option Str)) :
    Except HttpExc (Option (Except HttpExc (Message φ))) :=
  result.map (Option.map (Message.unserialize F))

/-- **From one end to the other.** What the other ends of the connections serialize and send is what the connections
    are given, in order, with the first line among the headers, if the messages are clean and say how long they are.
    What is left in a buffer came in behind them, and the next try gives the next message exactly if all of it is
    there. -/
theorem messages_in_order {msgs : ι → List (Message φ)} (hmsgs : ∀ i, ∀ m ∈ msgs i, Sendable B readSize F line m)
    {as : List (Act ι)} (h : Machine.run (step B readSize isServer) init as = some s)
    (hguard : Machine.Guarded (step B readSize isServer) Undisturbed init as)
    (hsent : ∀ i, received i as <+: ((msgs i).map (Message.serialize F)).flatten) (i : ι) :
    ∃ n, (results i (Machine.outputs (step B readSize isServer) (out B readSize isServer) init as)).map
          (fun result => result.bind (Message.unserialize F))
        = ((msgs i).take n).map (fun m => .ok (m.received (line m.first)))
      ∧ received i as = (((msgs i).take n).map (Message.serialize F)).flatten ++ s.buffers i
      ∧ (s.Undisturbed (.decode i) → unserialized F (s.attempt B readSize isServer i).1
          = .ok ((((msgs i).drop n).head?.filter (fun m => (m.serialize F).length ≤ (s.buffers i).length)).map
              (fun m => .ok (m.received (line m.first))))) := by
  -- serialized messages that say how long they are, are framed, so the runs of the decoder apply
  have hframed : ∀ i, ∀ raw ∈ (msgs i).map (Message.serialize F), Framed B readSize raw := by
    intro i raw hraw
    obtain ⟨m, hm, rfl⟩ := List.mem_map.mp hraw
    exact (hmsgs i m hm).framed
  obtain ⟨n, hn⟩ := progress_run hframed h hguard hsent i
  refine ⟨n, ?_, ?_, fun hu => ?_⟩
  · rw [hn.given, ← List.map_take, List.map_map, List.map_map]
    apply List.map_congr_left
    intro m hm
    exact (hmsgs i m (List.mem_of_mem_take hm)).unserialize
  · rw [hn.came, ← List.map_take]
  · rw [hn.next (hframed i) (hsent i) hu, ← List.map_drop, List.head?_map]
    cases hhead : ((msgs i).drop n).head? with
    | none => rfl
    | some m =>
        have hmem : m ∈ msgs i := List.mem_of_mem_drop (List.mem_of_head? hhead)
        rw [Option.map_some, Option.filter_some, Option.filter_some]
        split
        · exact congrArg (fun r => Except.ok (some r)) (hmsgs i m hmem).unserialize
        · rfl

theorem messages_in_order_pieces : ∃ s n,
    Machine.run (step .lp64 readDecimal (fun _ => true)) init pieces = some s
      ∧ (results () (Machine.outputs (step .lp64 readDecimal (fun _ => true)) (out .lp64 readDecimal (fun _ => true))
          init pieces)).map (fun result => result.bind (Message.unserialize (Request.firstStr "")))
        = ([shortRequest].take n).map (fun m => .ok (m.received m.first.firstLine)) := by
  obtain ⟨s, hs⟩ : ∃ s, Machine.run (step .lp64 readDecimal (fun _ => true)) init pieces = some s := ⟨_, rfl⟩
  have hsendable : ∀ _ : Unit, ∀ m ∈ [shortRequest],
      Sendable .lp64 readDecimal (Request.firstStr "") Request.firstLine m := by
    intro _ m hm
    cases List.mem_singleton.mp hm
    exact ⟨shortRequest_clean "", ⟨[0x31], rfl, rfl⟩, by decide⟩
  obtain ⟨n, hn, -⟩ := messages_in_order hsendable hs pieces_guarded (fun _ => pieces_received) ()
  exact ⟨s, n, hs, hn⟩

end Shared

end Http

end Unicomm
