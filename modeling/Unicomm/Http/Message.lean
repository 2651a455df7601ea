import Mathlib.Data.List.DropRight
import Unicomm.Core.Basic
import Unicomm.Lib.Search
import Unicomm.Lib.SortedMap

/-!
# `Http.Message` — the messages of the HTTP sample

Models `http_message_base.cpp`, `http_request.cpp` and `http_response.cpp`. A message is a first line, headers and data;
requests and responses differ in the first line (`FirstStr`).

`parse_header` puts the first line among the headers, under the empty name.
-/

namespace Unicomm

namespace Http

open Search

/-- `header::separator`: the end of a line. -/
def separator : Str := [0x0d, 0x0a]

/-- `head_body_separator`: two line ends. -/
def headBodySeparator : Str := [0x0d, 0x0a, 0x0d, 0x0a]

/-- `header::name_value_separator`: a colon. -/
def nameValueSeparator : Str := [0x3a]

/-- `version`: `HTTP/1.0`. -/
def version : Str := [0x48, 0x54, 0x54, 0x50, 0x2f, 0x31, 0x2e, 0x30]

/-- What the sample throws. -/
inductive HttpExc where
  | badRequestError (what : String)
  | lengthRequiredError (what : String)
  | badLexicalCast
  deriving DecidableEq, Repr

/-- `header_collection_type`: a `std::multimap`. -/
abbrev Headers := List (Str × Str)

/-! ## Reading -/

/-- `triml`. -/
def triml (s : Str) : Str := s.dropWhile (fun c => c = 0x20)

/-- `trimr`. -/
def trimr (s : Str) : Str := s.rdropWhile (fun c => c = 0x20)

/-- `trim`: without the blanks at both ends. -/
def trim (s : Str) : Str := trimr (triml s)

/-- The text of every error in a header. -/
def invalidHeader : HttpExc := .badRequestError "Invalid HTTP header format"

/-- `getline` up to a carriage return, into a buffer of 0x200 characters. -/
def getline (s : Str) : Str := (s.takeWhile (fun c => c ≠ 0x0d)).take 0x1ff

/-- What is left after `getline` and `get`, if the stream is still good: a line that is too long ends the stream. -/
def nextLine (s : Str) : Option Str :=
  match s.drop (getline s).length with
  | c :: _ :: rest => if c = 0x0d then some rest else none
  | _              => none

/-- A string from a buffer ends at the first zero. -/
def cString (s : Str) : Str := s.takeWhile (fun c => c ≠ 0)

/-- What is left is less. -/
theorem length_lt_of_nextLine {s rest : Str} (h : nextLine s = some rest) : rest.length < s.length := by
  have hlen := List.length_drop (i := (getline s).length) (l := s)
  unfold nextLine at h
  split at h
  · next c d rest' hdrop =>
      split at h
      · cases h
        rw [hdrop] at hlen
        simp only [List.length_cons] at hlen
        omega
      · cases h
  · cases h

/-- One `name: value` line. -/
def parseLine (line : Str) (parsed : Headers) : Except HttpExc Headers :=
  match find nameValueSeparator line with
  | none   => .error invalidHeader
  | some i => .ok (SortedMap.add (trim (line.take i)) (trim (line.drop (i + 1))) parsed)

/-- The loop of `parse_header`: one line after the other, until the stream ends. -/
def parseLines (s : Str) (parsed : Headers) : Except HttpExc Headers :=
  match parseLine (cString (getline s)) parsed with
  | .error e   => .error e
  | .ok parsed =>
      match h : nextLine s with
      | none      => .ok parsed
      | some rest =>
          have := length_lt_of_nextLine h
          parseLines rest parsed
termination_by s.length

/-- `parse_header`. -/
def parseHeader (header : Str) : Except HttpExc Headers :=
  match find separator header with
  | none   => .error invalidHeader
  | some i => parseLines (header.drop (i + 2)) [([], trim (header.take i))]

/-! ## Messages -/

/-- `serialize_first_str` and `unserialize_first_str`. -/
structure FirstStr (φ : Type) where
  serialize   : φ → Str
  unserialize : Str → Except HttpExc φ

/-- `message_base`. -/
structure Message (φ : Type) where
  first   : φ
  headers : Headers
  data    : Str
  deriving DecidableEq, Repr

/-- A header as `headers_str` writes it, its end apart; a header without a name is the first line. -/
def headerLine (e : Str × Str) : Str := e.1 ++ (if e.1 = [] then [] else nameValueSeparator ++ [0x20]) ++ e.2

/-- `headers_str`. -/
def headersStr (headers : Headers) : Str := headers.flatMap (fun e => headerLine e ++ separator)

namespace Message

variable {φ : Type} (F : FirstStr φ)

/-- `serialize`. -/
def serialize (m : Message φ) : Str := F.serialize m.first ++ headersStr m.headers ++ separator ++ m.data

/-- `unserialize`. There always is a header with the empty name. -/
def unserialize (message : Str) : Except HttpExc (Message φ) :=
  match find headBodySeparator message with
  | none   => .error invalidHeader
  | some i => do
      let headers ← parseHeader (message.take i)
      let first ← F.unserialize ((headers.lookup []).getD [])
      .ok ⟨first, headers, message.drop (i + headBodySeparator.length)⟩

end Message

/-! ## Requests and responses -/

/-- `isspace`. -/
def isSpace (c : Byte) : Bool := c = 0x20 || (0x09 ≤ c.toNat && c.toNat ≤ 0x0d)

/-- Extraction of a word from a stream, and what is left; it fails if there is none. -/
def extractWord (s : Str) : Option (Str × Str) :=
  let s := s.dropWhile isSpace
  if s = [] then none else some (s.takeWhile (fun c => !isSpace c), s.dropWhile (fun c => !isSpace c))

/-- `request`, apart from what it has of `message_base`. -/
structure Request where
  name : Str
  uri  : Str
  deriving DecidableEq, Repr

/-- The first line of a request. `what` is the text of a `std::ios_base::failure`. -/
def Request.firstStr (what : String) : FirstStr Request where
  serialize r   := r.name ++ [0x20] ++ r.uri ++ [0x20] ++ version ++ separator
  unserialize s :=
    let words : Option Request := do
      let (name, s) ← extractWord s
      let (uri, s) ← extractWord s
      let _ ← extractWord s
      some ⟨name, uri⟩
    match words with
    | some r => .ok r
    | none   => .error (.badRequestError ("Invalid HTTP request header first string format [" ++ what ++ "]"))

/-- `response`, apart from what it has of `message_base`. -/
structure Response where
  statusCode : Str
  deriving DecidableEq, Repr

/-- The first line of a response. -/
def Response.firstStr : FirstStr Response where
  serialize r   := version ++ [0x20] ++ r.statusCode ++ separator
  unserialize s :=
    match find [0x20] s with
    | none     => .error (.badRequestError "Invalid HTTP response header first string format")
    | some pos =>
        if s.take pos = [] then
          .error (.badRequestError "Invalid HTTP response header first string format [version missing]")
        else if s.drop (pos + 1) = [] then
          .error (.badRequestError "Invalid HTTP response header first string format [response code missing]")
        else .ok ⟨s.drop (pos + 1)⟩

end Http

end Unicomm
