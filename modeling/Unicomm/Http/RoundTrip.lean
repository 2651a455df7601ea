import Unicomm.Http.Message

/-!
# `Http.RoundTrip` — what is written is read

A message whose headers are clean is read as it was written, with its first line among the headers
(`unserialize_serialize`); one without headers is not read at all.
-/

namespace Unicomm

namespace Http

open Search

/-! ## Clean messages -/

/-- A header that is read as it is written: no name or value has blanks around it or holds what ends it, and the line
    fits the buffer. -/
structure CleanHeader (e : Str × Str) : Prop where
  name_ne     : e.1 ≠ []
  name_chars  : ∀ c ∈ e.1, c ≠ 0x0d ∧ c ≠ 0 ∧ c ≠ 0x3a
  value_chars : ∀ c ∈ e.2, c ≠ 0x0d ∧ c ≠ 0
  name_trim   : trim e.1 = e.1
  value_trim  : trim e.2 = e.2
  fits        : e.1.length + e.2.length + 2 ≤ 0x1ff

/-- The header of a line: the first line, and the others. -/
def headText (line : Str) (lines : List Str) : Str := line ++ lines.flatMap (fun l => separator ++ l)

theorem headText_cons (line l : Str) (ls : List Str) :
    headText line (l :: ls) = line ++ separator ++ headText l ls := by
  unfold headText
  rw [List.flatMap_cons, List.append_assoc, List.append_assoc]

/-! ## The end of the header -/

variable {line s : Str}

/-- The end of a line is found behind it. -/
theorem find_separator (h : 0x0d ∉ line) (s : Str) : find separator (line ++ separator ++ s) = some line.length := by
  rw [List.append_assoc]
  exact find_behind h (List.prefix_append _ s)

/-- A line that another one follows is not the end of the header. -/
theorem find_headBodySeparator_line (h : 0x0d ∉ line) (hs : ∀ c ∈ s.head?, c ≠ 0x0d) :
    find headBodySeparator (line ++ separator ++ s)
      = (find headBodySeparator s).map (· + (line ++ separator).length) := by
  apply find_skip
  intro j hj
  rw [List.append_assoc]
  by_cases hlt : j < line.length
  · exact not_starts_of_notMem h (separator ++ s) hlt
  · -- at the end of the line: the third character would have to begin another one
    rw [List.length_append] at hj
    have hlen : separator.length = 2 := rfl
    obtain ⟨k, rfl⟩ : ∃ k, j = line.length + k := ⟨j - line.length, by omega⟩
    rw [← List.drop_drop, List.drop_left]
    have hk : k = 0 ∨ k = 1 := by omega
    rcases hk with rfl | rfl
    · intro hstarts
      have hthird : [0x0d, 0x0a] <+: s :=
        (List.cons_prefix_cons.mp (List.cons_prefix_cons.mp hstarts).2).2
      obtain ⟨t, rfl⟩ := hthird
      exact hs 0x0d rfl rfl
    · intro hstarts
      exact absurd (List.cons_prefix_cons.mp hstarts).1 (by decide)

/-- **The end of the header is found.** -/
theorem find_headBodySeparator (h : 0x0d ∉ line) {lines : List Str} (hlines : ∀ l ∈ lines, l ≠ [] ∧ 0x0d ∉ l)
    (data : Str) :
    find headBodySeparator (headText line lines ++ headBodySeparator ++ data) = some (headText line lines).length := by
  induction lines generalizing line with
  | nil =>
      unfold headText
      rw [List.flatMap_nil, List.append_nil, List.append_assoc]
      exact find_behind h (List.prefix_append _ data)
  | cons l ls ih =>
      obtain ⟨hl, hls⟩ := List.forall_mem_cons.mp hlines
      have hhead : ∀ c ∈ (headText l ls ++ headBodySeparator ++ data).head?, c ≠ 0x0d := by
        intro c hc
        obtain ⟨d, l', rfl⟩ := List.exists_cons_of_ne_nil hl.1
        cases hc
        exact fun hd => hl.2 (hd ▸ List.mem_cons_self)
      have hlen : (line ++ separator ++ headText l ls).length
          = (headText l ls).length + (line ++ separator).length := by
        rw [List.length_append, Nat.add_comm]
      rw [headText_cons, List.append_assoc (line ++ separator), List.append_assoc (line ++ separator),
        find_headBodySeparator_line h hhead, ih hl.2 hls, hlen]
      rfl

/-! ## The lines -/

/-- What comes before a carriage return. -/
theorem takeWhile_line (h : 0x0d ∉ line) (hs : ∀ c ∈ s.head?, c = 0x0d) :
    (line ++ s).takeWhile (fun c => c ≠ 0x0d) = line := by
  have hline : ∀ c ∈ line, decide (c ≠ 0x0d) = true := fun c hc => decide_eq_true (fun he => h (he ▸ hc))
  have hstop : s.takeWhile (fun c => c ≠ 0x0d) = [] := by
    cases s with
    | nil => rfl
    | cons c s => exact List.takeWhile_cons_of_neg (by simpa using hs c rfl)
  rw [List.takeWhile_append_of_pos hline, hstop, List.append_nil]

theorem getline_eq (h : 0x0d ∉ line) (hfits : line.length ≤ 0x1ff) (hs : ∀ c ∈ s.head?, c = 0x0d) :
    getline (line ++ s) = line := by
  unfold getline
  rw [takeWhile_line h hs, List.take_of_length_le hfits]

/-- The line that ends the stream. -/
theorem getline_last (h : 0x0d ∉ line) (hfits : line.length ≤ 0x1ff) : getline line = line ∧ nextLine line = none := by
  have hline : getline line = line := by
    have happ := getline_eq (s := []) h hfits (fun c hc => by cases hc)
    rwa [List.append_nil] at happ
  refine ⟨hline, ?_⟩
  unfold nextLine
  rw [hline, List.drop_length]

/-- A line that another one follows. -/
theorem getline_next (h : 0x0d ∉ line) (hfits : line.length ≤ 0x1ff) (s : Str) :
    getline (line ++ separator ++ s) = line ∧ nextLine (line ++ separator ++ s) = some s := by
  have hline : getline (line ++ separator ++ s) = line := by
    rw [List.append_assoc]
    refine getline_eq h hfits (fun c hc => ?_)
    cases hc
    rfl
  refine ⟨hline, ?_⟩
  unfold nextLine
  rw [hline, List.append_assoc, List.drop_left]
  rfl

variable {e : Str × Str}

theorem headerLine_eq (he : CleanHeader e) : headerLine e = e.1 ++ (0x3a :: 0x20 :: e.2) := by
  unfold headerLine
  rw [if_neg he.name_ne, List.append_assoc]
  rfl

/-- The characters of a clean header's line. -/
theorem headerLine_chars (he : CleanHeader e) : ∀ c ∈ headerLine e, c ≠ 0x0d ∧ c ≠ 0 := by
  intro c hc
  rw [headerLine_eq he] at hc
  rcases List.mem_append.mp hc with hc | hc
  · exact ⟨(he.name_chars c hc).1, (he.name_chars c hc).2.1⟩
  · simp only [List.mem_cons] at hc
    rcases hc with rfl | rfl | hc
    · decide
    · decide
    · exact he.value_chars c hc

theorem headerLine_isLine (he : CleanHeader e) : headerLine e ≠ [] ∧ 0x0d ∉ headerLine e := by
  refine ⟨?_, fun hmem => (headerLine_chars he _ hmem).1 rfl⟩
  rw [headerLine_eq he]
  exact List.append_ne_nil_of_left_ne_nil he.name_ne _

/-- **A clean header is read from its line.** -/
theorem parseLine_headerLine (he : CleanHeader e) (parsed : Headers) :
    parseLine (cString (headerLine e)) parsed = .ok (SortedMap.add e.1 e.2 parsed) := by
  have hstring : cString (headerLine e) = headerLine e := by
    have hall : ∀ c ∈ headerLine e, decide (c ≠ 0) = true := fun c hc => decide_eq_true (headerLine_chars he c hc).2
    exact List.takeWhile_eq_self_iff.mpr hall
  have hcolon : (0x3a : Byte) ∉ e.1 := fun hmem => (he.name_chars _ hmem).2.2 rfl
  have hfind : find nameValueSeparator (headerLine e) = some e.1.length := by
    rw [headerLine_eq he]
    exact find_behind hcolon (List.prefix_append [0x3a] (0x20 :: e.2))
  have hvalue : trim (0x20 :: e.2) = e.2 := he.value_trim
  unfold parseLine
  rw [hstring, hfind]
  show Except.ok (SortedMap.add (trim ((headerLine e).take e.1.length)) (trim ((headerLine e).drop (e.1.length + 1)))
    parsed) = _
  rw [headerLine_eq he, List.take_left, ← List.drop_drop, List.drop_left, he.name_trim]
  exact congrArg (fun v => Except.ok (SortedMap.add e.1 v parsed)) hvalue

variable {parsed parsed' : Headers} {rest : Str}

theorem parseLines_last (hparse : parseLine (cString (getline s)) parsed = .ok parsed') (hnext : nextLine s = none) :
    parseLines s parsed = .ok parsed' := by
  rw [parseLines]
  simp only [hparse]
  split
  · rfl
  · next rest hrest =>
      rw [hnext] at hrest
      cases hrest

theorem parseLines_next (hparse : parseLine (cString (getline s)) parsed = .ok parsed')
    (hnext : nextLine s = some rest) : parseLines s parsed = parseLines rest parsed' := by
  rw [parseLines]
  simp only [hparse]
  split
  · next hrest =>
      rw [hnext] at hrest
      cases hrest
  · next rest' hrest =>
      rw [hnext] at hrest
      cases hrest
      rfl

/-- **Clean headers are read one after the other.** -/
theorem parseLines_headers {es : Headers} (he : CleanHeader e) (hes : ∀ e ∈ es, CleanHeader e) :
    parseLines (headText (headerLine e) (es.map headerLine)) parsed = .ok (SortedMap.addAll parsed (e :: es)) := by
  have hline : ∀ {e}, CleanHeader e → 0x0d ∉ headerLine e ∧ (headerLine e).length ≤ 0x1ff := by
    intro e he
    refine ⟨fun hmem => (headerLine_chars he _ hmem).1 rfl, ?_⟩
    have hfits := he.fits
    rw [headerLine_eq he, List.length_append, List.length_cons, List.length_cons]
    omega
  obtain ⟨hno, hfits⟩ := hline he
  induction es generalizing e parsed with
  | nil =>
      have htext : headText (headerLine e) ([].map headerLine) = headerLine e := List.append_nil _
      obtain ⟨hget, hnext⟩ := getline_last hno hfits
      rw [htext]
      apply parseLines_last _ hnext
      rw [hget]
      exact parseLine_headerLine he parsed
  | cons e' es ih =>
      obtain ⟨he', hes'⟩ := List.forall_mem_cons.mp hes
      obtain ⟨hno', hfits'⟩ := hline he'
      obtain ⟨hget, hnext⟩ := getline_next hno hfits (headText (headerLine e') (es.map headerLine))
      have hparse := parseLine_headerLine he parsed
      rw [List.map_cons, headText_cons, parseLines_next (by rw [hget]; exact hparse) hnext, ih he' hes' hno' hfits']
      rfl

theorem addAll_of_ascending {hs : Headers} (hne : ∀ e ∈ hs, e.1 ≠ []) (hs' : SortedMap.Ascending hs) (first : Str) :
    SortedMap.addAll [([], first)] hs = ([], first) :: hs := by
  apply SortedMap.addAll_eq_append
  refine List.pairwise_cons.mpr ⟨fun e he hlt => ?_, hs'⟩
  -- no name comes before the empty one
  cases hname : e.1 with
  | nil => exact hne e he hname
  | cons c s =>
      rw [hname] at hlt
      cases hlt

/-- **`parse_header`** of a first line and clean headers, at least one of them. -/
theorem parseHeader_headText {hs : Headers} (hne : hs ≠ []) (hno : 0x0d ∉ line) (hclean : ∀ e ∈ hs, CleanHeader e)
    (hsorted : SortedMap.Ascending hs) :
    parseHeader (headText line (hs.map headerLine)) = .ok (([], trim line) :: hs) := by
  obtain ⟨e, es, rfl⟩ := List.exists_cons_of_ne_nil hne
  obtain ⟨he, hes⟩ := List.forall_mem_cons.mp hclean
  unfold parseHeader
  rw [List.map_cons, headText_cons, find_separator hno]
  show parseLines ((line ++ separator ++ _).drop (line.length + 2))
    [([], trim ((line ++ separator ++ _).take line.length))] = _
  have hlen : line.length + 2 = (line ++ separator).length := by
    rw [List.length_append]
    rfl
  rw [hlen, List.drop_left, List.append_assoc, List.take_left, parseLines_headers he hes]
  exact congrArg Except.ok (addAll_of_ascending (fun e he => (hclean e he).name_ne) hsorted _)

/-! ## Messages -/

variable {φ : Type} {F : FirstStr φ} {m : Message φ}

/-- A message that is read as it is written, with its first line. -/
structure Message.Clean (F : FirstStr φ) (m : Message φ) (line : Str) : Prop where
  first   : F.serialize m.first = line ++ separator
  oneLine : 0x0d ∉ line
  reads   : F.unserialize (trim line) = .ok m.first
  headers : ∀ e ∈ m.headers, CleanHeader e
  sorted  : SortedMap.Ascending m.headers

theorem headersStr_eq (line : Str) (hs : Headers) :
    line ++ separator ++ headersStr hs = headText line (hs.map headerLine) ++ separator := by
  unfold headersStr
  induction hs generalizing line with
  | nil => exact (List.append_nil _).trans (congrArg (· ++ separator) (List.append_nil line).symm)
  | cons e hs ih =>
      rw [List.map_cons, headText_cons, List.flatMap_cons, List.append_assoc (line ++ separator), ← ih]

theorem serialize_eq (h : m.Clean F line) :
    m.serialize F = headText line (m.headers.map headerLine) ++ headBodySeparator ++ m.data := by
  unfold Message.serialize
  rw [h.first, headersStr_eq, List.append_assoc (headText line (m.headers.map headerLine))]
  rfl

/-- Where the header of a message ends. -/
theorem find_serialize (h : m.Clean F line) :
    find headBodySeparator (m.serialize F) = some (headText line (m.headers.map headerLine)).length := by
  rw [serialize_eq h]
  apply find_headBodySeparator h.oneLine
  intro l hl
  obtain ⟨e, he, rfl⟩ := List.mem_map.mp hl
  exact headerLine_isLine (h.headers e he)

/-- What the receiver makes of a message. -/
def Message.received (m : Message φ) (line : Str) : Message φ := { m with headers := ([], trim line) :: m.headers }

/-- **A clean message with headers is read as it was written**, its first line being a header now; without headers it is
    not read. -/
theorem unserialize_serialize (h : m.Clean F line) :
    Message.unserialize F (m.serialize F)
      = if m.headers = [] then .error invalidHeader else .ok (m.received line) := by
  -- the head ends where the serialization put the blank line, as no header holds one
  have hread : Message.unserialize F (m.serialize F) = (do
      let headers ← parseHeader (headText line (m.headers.map headerLine))
      let first ← F.unserialize ((headers.lookup []).getD [])
      Except.ok { first, headers, data := m.data }) := by
    have htext := serialize_eq h
    have hfind := find_serialize h
    have hhead : (m.serialize F).take (headText line (m.headers.map headerLine)).length
        = headText line (m.headers.map headerLine) := by
      rw [htext, List.append_assoc, List.take_left]
    have hdata : (m.serialize F).drop ((headText line (m.headers.map headerLine)).length + headBodySeparator.length)
        = m.data := by
      rw [htext, ← List.length_append, List.drop_left]
    unfold Message.unserialize
    rw [hfind]
    simp only [hhead, hdata]
  rw [hread]
  split
  -- the first line alone is not followed by a separator, so it is no header
  · next hnil =>
      have hno : find separator line = none :=
        find_eq_none_iff.mpr (fun hin => h.oneLine (hin.subset List.mem_cons_self))
      have htext : headText line (m.headers.map headerLine) = line := by
        rw [hnil]
        exact List.append_nil line
      unfold parseHeader
      rw [htext, hno]
      rfl
  · next hne =>
      rw [parseHeader_headText hne h.oneLine h.headers h.sorted]
      show (do
        let first ← F.unserialize (trim line)
        Except.ok ({ first, headers := ([], trim line) :: m.headers, data := m.data } : Message φ)) = _
      rw [h.reads]
      rfl

/-- A line without a colon is no header. -/
theorem parseLine_of_notMem (h : 0x3a ∉ line) (parsed : Headers) : parseLine line parsed = .error invalidHeader := by
  have hnone : find nameValueSeparator line = none :=
    find_eq_none_iff.mpr (fun hin => h (hin.subset List.mem_cons_self))
  unfold parseLine
  rw [hnone]

/-- **A message that was received cannot be sent on as it is**: its first line is a header of it, so it is written
    twice, and the second time it is no header to the receiver. -/
theorem unserialize_received (h : m.Clean F line) (hcolon : 0x3a ∉ line) (htrim : trim line ≠ []) :
    Message.unserialize F ((m.received line).serialize F) = .error invalidHeader := by
  have hsub : ∀ c ∈ trim line, c ∈ line := fun c hc =>
    (List.dropWhile_sublist _).subset ((List.rdropWhile_prefix _ _).subset hc)
  have htext : (m.received line).serialize F
      = headText line (trim line :: m.headers.map headerLine) ++ headBodySeparator ++ m.data := by
    have hline : headerLine ([], trim line) = trim line := rfl
    unfold Message.serialize
    show F.serialize m.first ++ headersStr (([], trim line) :: m.headers) ++ separator ++ m.data = _
    rw [h.first, headersStr_eq, List.map_cons, hline, List.append_assoc (headText _ _)]
    rfl
  have hfind : find headBodySeparator ((m.received line).serialize F)
      = some (headText line (trim line :: m.headers.map headerLine)).length := by
    rw [htext]
    apply find_headBodySeparator h.oneLine
    intro l hl
    rcases List.mem_cons.mp hl with rfl | hl
    · exact ⟨htrim, fun hmem => h.oneLine (hsub _ hmem)⟩
    · obtain ⟨e, he, rfl⟩ := List.mem_map.mp hl
      exact headerLine_isLine (h.headers e he)
  -- the second line begins with the first one, of which a piece without a colon is read
  have hparse : parseHeader (headText line (trim line :: m.headers.map headerLine)) = .error invalidHeader := by
    have hskip : (headText line (trim line :: m.headers.map headerLine)).drop (line.length + 2)
        = headText (trim line) (m.headers.map headerLine) := by
      have hlen : line.length + 2 = (line ++ separator).length := by
        rw [List.length_append]
        rfl
      rw [headText_cons, hlen, List.drop_left]
    have hget : 0x3a ∉ cString (getline (headText (trim line) (m.headers.map headerLine))) := by
      have hstop : ∀ c ∈ ((m.headers.map headerLine).flatMap (fun l => separator ++ l)).head?, c = 0x0d := by
        intro c hc
        cases hlines : m.headers.map headerLine with
        | nil =>
            rw [hlines] at hc
            cases hc
        | cons l ls =>
            rw [hlines] at hc
            cases hc
            rfl
      have hline : (headText (trim line) (m.headers.map headerLine)).takeWhile (fun c => c ≠ 0x0d) = trim line :=
        takeWhile_line (fun hmem => h.oneLine (hsub _ hmem)) hstop
      intro hmem
      have hmem' := (List.takeWhile_sublist _).subset hmem
      unfold getline at hmem'
      rw [hline] at hmem'
      exact hcolon (hsub _ (List.mem_of_mem_take hmem'))
    have hfirst := find_separator h.oneLine (headText (trim line) (m.headers.map headerLine))
    rw [← headText_cons] at hfirst
    unfold parseHeader
    rw [hfirst]
    simp only [hskip]
    rw [parseLines, parseLine_of_notMem hget]
  have hhead : ((m.received line).serialize F).take (headText line (trim line :: m.headers.map headerLine)).length
      = headText line (trim line :: m.headers.map headerLine) := by
    rw [htext, List.append_assoc, List.take_left]
  unfold Message.unserialize
  rw [hfind]
  simp only [hhead, hparse]
  rfl

/-! ## First lines -/

/-- A word of a request's first line. -/
def IsWord (w : Str) : Prop := w ≠ [] ∧ ∀ c ∈ w, isSpace c = false

instance (w : Str) : Decidable (IsWord w) := inferInstanceAs (Decidable (_ ∧ _))

/-- A word is extracted up to the blank behind it. -/
theorem extractWord_eq {w : Str} (hw : IsWord w) (hs : ∀ c ∈ s.head?, isSpace c = true) :
    extractWord (w ++ s) = some (w, s) := by
  obtain ⟨c, w, rfl⟩ := List.exists_cons_of_ne_nil hw.1
  have hc : isSpace c = false := hw.2 c List.mem_cons_self
  have hword : ∀ d ∈ c :: w, (!isSpace d) = true := fun d hd => by rw [hw.2 d hd]; rfl
  have hstop : s.takeWhile (fun c => !isSpace c) = [] ∧ s.dropWhile (fun c => !isSpace c) = s := by
    cases s with
    | nil => exact ⟨rfl, rfl⟩
    | cons d s =>
        have hd : ¬ (!isSpace d) = true := by rw [hs d rfl]; decide
        exact ⟨List.takeWhile_cons_of_neg hd, List.dropWhile_cons_of_neg hd⟩
  have hdrop : (c :: w ++ s).dropWhile isSpace = c :: w ++ s :=
    List.dropWhile_cons_of_neg (by rw [hc]; exact Bool.false_ne_true)
  unfold extractWord
  rw [hdrop]
  show some ((c :: w ++ s).takeWhile _, (c :: w ++ s).dropWhile _) = _
  rw [List.takeWhile_append_of_pos hword, List.dropWhile_append_of_pos hword, hstop.1, hstop.2, List.append_nil]

/-- Nothing is trimmed that begins and ends with other characters. -/
theorem trim_eq {c d : Byte} {u : Str} (hc : c ≠ 0x20) (hd : d ≠ 0x20) : trim (c :: (u ++ [d])) = c :: (u ++ [d]) := by
  have hleft : triml (c :: (u ++ [d])) = c :: (u ++ [d]) := List.dropWhile_cons_of_neg (by simpa using hc)
  unfold trim
  rw [hleft]
  exact List.rdropWhile_concat_neg (p := fun c => decide (c = 0x20)) (l := c :: u) d (by simpa using hd)

/-- The first line of a request, its end apart. -/
def Request.firstLine (r : Request) : Str := r.name ++ (0x20 :: (r.uri ++ (0x20 :: version)))

theorem Request.serialize_eq (what : String) (r : Request) :
    (Request.firstStr what).serialize r = r.firstLine ++ separator := by
  unfold firstStr firstLine
  simp only [List.append_assoc, List.cons_append, List.nil_append]

/-- **A request of two words is read from its first line.** -/
theorem Request.unserialize_firstLine {r : Request} (hname : IsWord r.name) (huri : IsWord r.uri) (what : String) :
    (Request.firstStr what).unserialize r.firstLine = .ok r := by
  have hblank : ∀ s : Str, ∀ c ∈ ((0x20 : Byte) :: s).head?, isSpace c = true := by
    intro s c hc
    cases hc
    rfl
  have hfirst : extractWord r.firstLine = some (r.name, 0x20 :: (r.uri ++ (0x20 :: version))) :=
    extractWord_eq hname (hblank _)
  have hsecond : extractWord (0x20 :: (r.uri ++ (0x20 :: version))) = some (r.uri, 0x20 :: version) :=
    extractWord_eq huri (hblank _)
  unfold firstStr
  simp only [hfirst, hsecond, Option.bind_eq_bind, Option.bind_some]
  rfl

/-- What makes a request clean. -/
theorem Request.clean {m : Message Request} (what : String) (hname : IsWord m.first.name) (huri : IsWord m.first.uri)
    (hheaders : ∀ e ∈ m.headers, CleanHeader e) (hsorted : SortedMap.Ascending m.headers) :
    m.Clean (Request.firstStr what) m.first.firstLine where
  first   := Request.serialize_eq what m.first
  oneLine := by
    have hword : ∀ {w : Str}, IsWord w → 0x0d ∉ w := fun hw hmem => absurd (hw.2 _ hmem) (by decide)
    unfold firstLine
    simp only [List.mem_append, List.mem_cons, not_or]
    exact ⟨hword hname, by decide, hword huri, by decide, by decide⟩
  reads   := by
    have htrim : trim m.first.firstLine = m.first.firstLine := by
      obtain ⟨c, name, hc⟩ := List.exists_cons_of_ne_nil hname.1
      have hne : c ≠ 0x20 := by
        rintro rfl
        exact absurd (hname.2 0x20 (hc ▸ List.mem_cons_self)) (by decide)
      have hline : m.first.firstLine
          = c :: (name ++ (0x20 :: (m.first.uri ++ [0x20, 0x48, 0x54, 0x54, 0x50, 0x2f, 0x31, 0x2e])) ++ [0x30]) := by
        unfold firstLine
        rw [hc]
        simp [version]
      rw [hline]
      exact trim_eq hne (by decide)
    rw [htrim]
    exact Request.unserialize_firstLine hname huri what
  headers := hheaders
  sorted  := hsorted

/-- The first line of a response, its end apart. -/
def Response.firstLine (r : Response) : Str := version ++ (0x20 :: r.statusCode)

/-- What makes a response clean: its status is not empty, is on one line and does not end with a blank. -/
theorem Response.clean {m : Message Response} {u : Str} {d : Byte} (hcode : m.first.statusCode = u ++ [d])
    (hd : d ≠ 0x20) (hno : 0x0d ∉ m.first.statusCode) (hheaders : ∀ e ∈ m.headers, CleanHeader e)
    (hsorted : SortedMap.Ascending m.headers) : m.Clean Response.firstStr m.first.firstLine where
  first   := by
    unfold firstStr firstLine
    simp only [List.append_assoc, List.cons_append, List.nil_append]
  oneLine := by
    unfold firstLine
    simp only [List.mem_append, List.mem_cons, not_or]
    exact ⟨by decide, by decide, hno⟩
  reads   := by
    have htrim : trim m.first.firstLine = m.first.firstLine := by
      have hline : m.first.firstLine
          = 0x48 :: ([0x54, 0x54, 0x50, 0x2f, 0x31, 0x2e, 0x30, 0x20] ++ u ++ [d]) := by
        unfold firstLine
        rw [hcode]
        simp [version]
      rw [hline]
      exact trim_eq (by decide) hd
    have hfind : find [0x20] m.first.firstLine = some version.length :=
      find_behind (by decide) (List.prefix_append [0x20] m.first.statusCode)
    have hversion : m.first.firstLine.take version.length = version := List.take_left
    have hstatus : m.first.firstLine.drop (version.length + 1) = m.first.statusCode := by
      unfold firstLine
      rw [← List.drop_drop, List.drop_left]
      rfl
    have hne : m.first.statusCode ≠ [] := by
      rw [hcode]
      exact List.append_ne_nil_of_right_ne_nil u (List.cons_ne_nil d [])
    rw [htrim]
    unfold firstStr
    simp only [hfind, hversion, hstatus, if_neg hne]
    rfl
  headers := hheaders
  sorted  := hsorted

end Http

end Unicomm
