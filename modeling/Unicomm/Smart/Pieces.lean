import Unicomm.Smart.ContentHandler

/-!
# `Smart.Pieces` — a text that is reported in pieces

A parser may report one text in several calls. For the text of a property the handler's `_chunks` flag puts the pieces
together again; for the text of an item nothing does, so every piece becomes an item of its own. `Pieces` is what a
parser may do that leaves the texts of items whole, and the handler does not see it (`parse_pieces`). The reports of
that kind are those that are `ItemsWhole`.
-/

namespace Unicomm

namespace Smart

/-- **Reports of the same document.** The first list of callbacks has some texts in pieces that the second has whole;
    the tags are those of the elements that are open. -/
inductive Pieces : List Str → List Sax → List Sax → Prop where
  | nil {tags} : Pieces tags [] []
  | startElement {tags tag attrs l m} :
      Pieces (xmlToStdString tag :: tags) l m →
      Pieces tags (.startElement tag attrs :: l) (.startElement tag attrs :: m)
  | endElement {tags tag l m} : Pieces tags.tail l m → Pieces tags (.endElement tag :: l) (.endElement tag :: m)
  | characters {tags s l m} : Pieces tags l m → Pieces tags (.characters s :: l) (.characters s :: m)
  | cut {tags s t l m} :
      tags.head? ≠ some arrayItemTag → Pieces tags (.characters (s ++ t) :: l) m →
      Pieces tags (.characters s :: .characters t :: l) m

/-- **A report in which the text of every item is in one piece.** -/
def ItemsWhole (doc : Xml) (l : List Sax) : Prop := Reported (fun tag => xmlToStdString tag ≠ arrayItemTag) [doc] l

/-- **What holds of every way to read a document**: writing and parsing it ends somehow, always without an error, and
    `P` is true of every report whose items are whole. -/
def Xerces.Gives (X : Xerces) (doc : Xml) (P : List Sax → Prop) : Prop :=
  (∃ r, X.reports doc r) ∧ ∀ r, X.reports doc r → ∃ l, r = .ok l ∧ (ItemsWhole doc l → P l)

theorem Xerces.Documented.gives {X : Xerces} (hX : X.Documented) {doc : Xml} (hdoc : doc.Plain) {P : List Sax → Prop}
    (h : ∀ l, ItemsWhole doc l → P l) : X.Gives doc P := by
  refine ⟨hX.total doc hdoc, fun r hr => ?_⟩
  obtain ⟨l, hl, -⟩ := hX.reported doc r hdoc hr
  exact ⟨l, hl, h l⟩

theorem Xerces.Gives.mono {X : Xerces} {doc : Xml} {P Q : List Sax → Prop} (h : X.Gives doc P)
    (hPQ : ∀ l, P l → Q l) : X.Gives doc Q := by
  refine ⟨h.1, fun r hr => ?_⟩
  obtain ⟨l, hl, hP⟩ := h.2 r hr
  exact ⟨l, hl, fun hwhole => hPQ l (hP hwhole)⟩

theorem Xerces.Gives.of_reports {X : Xerces} {doc : Xml} {P : List Sax → Prop} {l : List Sax} (h : X.Gives doc P)
    (hl : X.reports doc (.ok l)) (hwhole : ItemsWhole doc l) : P l := by
  obtain ⟨l', hl', hP⟩ := h.2 _ hl
  cases hl'
  exact hP hwhole

/-- Pieces of one text. -/
theorem Pieces.ofText {tags : List Str} {pieces : List XmlStr} {l m : List Sax} (hpieces : ∀ p ∈ pieces, p ≠ [])
    (hcut : tags.head? ≠ some arrayItemTag ∨ pieces.length ≤ 1) (h : Pieces tags l m) :
    Pieces tags (pieces.map .characters ++ l) (Xml.events (.text pieces.flatten) ++ m) := by
  cases pieces with
  | nil => exact h
  | cons p pieces =>
      have hne : (p :: pieces).flatten ≠ [] :=
        fun hnil => hpieces p List.mem_cons_self (List.append_eq_nil_iff.mp hnil).1
      unfold Xml.events
      rw [if_neg hne]
      clear hne hpieces
      induction pieces generalizing p with
      | nil =>
          rw [List.flatten_cons, List.flatten_nil, List.append_nil]
          exact .characters h
      | cons q pieces ih =>
          have hopen : tags.head? ≠ some arrayItemTag := hcut.resolve_right (fun hle => absurd hle (by simp))
          have hmerged := ih (p ++ q) (.inl hopen)
          rw [List.flatten_cons, List.append_assoc] at hmerged
          exact .cut hopen hmerged

/-- Such a report has in pieces only what the handler puts together again. -/
theorem Pieces.of_reported {xs : List Xml} {l : List Sax}
    (h : Reported (fun tag => xmlToStdString tag ≠ arrayItemTag) xs l) {tags : List Str} {r r' : List Sax}
    (hr : Pieces tags r r') : Pieces tags (l ++ r) (Xml.eventsAll xs ++ r') := by
  induction h generalizing tags r r' with
  | nil => exact hr
  | @leaf tag attrs s xs m pieces hflat hpieces hcut _ ih =>
      have hrest : Pieces (xmlToStdString tag :: tags) (.endElement tag :: (m ++ r))
          (.endElement tag :: (Xml.eventsAll xs ++ r')) := .endElement (ih hr)
      have htext := Pieces.ofText hpieces (hcut.imp_left (fun hne heq => hne (Option.some.inj heq))) hrest
      rw [hflat] at htext
      have hall : Pieces tags (.startElement tag attrs :: _) (.startElement tag attrs :: _) := .startElement htext
      simpa [Xml.eventsAll, Xml.events, List.append_assoc] using hall
  | @node tag attrs children l xs m _ _ ihchildren ih =>
      have hrest : Pieces (xmlToStdString tag :: tags) (.endElement tag :: (m ++ r))
          (.endElement tag :: (Xml.eventsAll xs ++ r')) := .endElement (ih hr)
      have hchildren := ihchildren hrest
      have hall : Pieces tags (.startElement tag attrs :: _) (.startElement tag attrs :: _) := .startElement hchildren
      simpa [Xml.eventsAll, Xml.events, List.append_assoc] using hall

theorem ItemsWhole.pieces {doc : Xml} {l : List Sax} (h : ItemsWhole doc l) : Pieces [] l doc.events := by
  have hpieces : Pieces [] (l ++ []) (Xml.eventsAll [doc] ++ []) := Pieces.of_reported h .nil
  rwa [List.append_nil, List.append_nil, eventsAll_singleton] at hpieces

/-- What a computation that succeeds went through. -/
theorem bind_eq_ok {α β : Type} {x : Except DataExc α} {f : α → Except DataExc β} {b : β}
    (h : (x >>= f) = .ok b) : ∃ a, x = .ok a ∧ f a = .ok b := by
  cases x with
  | error e => cases h
  | ok a    => exact ⟨a, rfl, h⟩

namespace Handler

variable {V : Numbers} {L : Lexical V} {s s' : Handler V} {attrs : TagAttributes} {tag : Str} {chars : XmlStr}

/-! ## Only the base class opens and closes elements -/

@[simp] theorem elements_setTopComplex (c : Complex V) : (s.setTopComplex c).elements = s.elements := by
  unfold setTopComplex
  split <;> rfl

@[simp] theorem elements_setTopDescriptor (d : Descriptor) : (s.setTopDescriptor d).elements = s.elements := rfl

@[simp] theorem elements_popComplex : s.popComplex.elements = s.elements := rfl

@[simp] theorem elements_popDescriptor : s.popDescriptor.elements = s.elements := rfl

theorem elements_setPredefinedName (h : setPredefinedName L attrs s = .ok s') : s'.elements = s.elements := by
  obtain ⟨c, -, h⟩ := bind_eq_ok h
  obtain ⟨c', -, h⟩ := bind_eq_ok h
  cases h
  exact elements_setTopComplex c'

theorem elements_onPropertyStart (h : onPropertyStart L tag attrs s = .ok s') : s'.elements = s.elements := by
  unfold onPropertyStart at h
  dsimp only at h
  split at h
  · have hkeep := elements_setPredefinedName h
    exact hkeep
  · cases h
    rfl

theorem elements_onArrayStart (h : onArrayStart s = .ok s') : s'.elements = s.elements := by
  obtain ⟨d, -, h⟩ := bind_eq_ok h
  cases h
  rfl

theorem elements_requireArray (h : requireArray s = .ok s') : s'.elements = s.elements := by
  obtain ⟨d, -, h⟩ := bind_eq_ok h
  split at h
  · cases h
    rfl
  · cases h

theorem elements_onPropertyCharacters {continuation : Bool} (h : onPropertyCharacters chars continuation s = .ok s') :
    s'.elements = s.elements := by
  obtain ⟨d, -, h⟩ := bind_eq_ok h
  split at h <;> cases h <;> rfl

theorem elements_onArrayItemCharacters (h : onArrayItemCharacters chars s = .ok s') : s'.elements = s.elements := by
  obtain ⟨d, -, h⟩ := bind_eq_ok h
  split at h <;> cases h <;> rfl

theorem elements_setTopProperty (h : setTopProperty L s = .ok s') : s'.elements = s.elements := by
  obtain ⟨d, -, h⟩ := bind_eq_ok h
  obtain ⟨c, -, h⟩ := bind_eq_ok h
  dsimp only at h
  split at h
  · split at h
    · obtain ⟨name, -, h⟩ := bind_eq_ok h
      obtain ⟨parent, -, h⟩ := bind_eq_ok h
      cases h
      simp
    · obtain ⟨d', -, h⟩ := bind_eq_ok h
      obtain ⟨parent, -, h⟩ := bind_eq_ok h
      split at h
      all_goals
        obtain ⟨name, -, h⟩ := bind_eq_ok h
        cases h
        simp
  · obtain ⟨c', -, h⟩ := bind_eq_ok h
    cases h
    simp

theorem elements_onCharacters (h : onCharacters tag chars s = .ok s') : s'.elements = s.elements := by
  unfold onCharacters at h
  split at h
  · cases h
    rfl
  split at h
  · exact elements_onPropertyCharacters h
  split at h
  · cases h
    rfl
  split at h
  · exact elements_onArrayItemCharacters h
  · cases h
    rfl

theorem elements_onEnd (h : onEnd L tag s = .ok s') : s'.elements = s.elements := by
  unfold onEnd at h
  split at h
  · cases h
    rfl
  split at h
  · exact elements_setTopProperty h
  split at h
  · exact elements_requireArray h
  split at h
  · exact elements_requireArray h
  · cases h
    rfl

/-- What a callback does to the elements that are open. -/
def opened (tags : List Str) : Sax → List Str
  | .startElement tag _ => xmlToStdString tag :: tags
  | .characters _       => tags
  | .endElement _       => tags.tail

/-- **The stack of elements is that of the document.** -/
theorem elements_step {e : Sax} (h : step L s e = .ok s') : s'.elements = opened s.elements e := by
  cases e with
  | startElement tag attrs =>
      change startElement L tag attrs s = _ at h
      unfold startElement at h
      dsimp only at h
      split at h
      · have hkeep := elements_setPredefinedName h
        exact hkeep
      split at h
      · have hkeep := elements_onPropertyStart h
        exact hkeep
      split at h
      · have hkeep := elements_onArrayStart h
        exact hkeep
      split at h
      · have hkeep := elements_requireArray h
        exact hkeep
      · cases h
        rfl
  | characters chars =>
      change Handler.characters chars s = _ at h
      unfold Handler.characters at h
      split at h
      · cases h
      · obtain ⟨t, ht, h⟩ := bind_eq_ok h
        cases h
        have hkeep := elements_onCharacters ht
        exact hkeep
  | endElement tag =>
      change Handler.endElement L s = _ at h
      unfold Handler.endElement at h
      split at h
      · cases h
      · obtain ⟨t, ht, h⟩ := bind_eq_ok h
        cases h
        have hkeep := congrArg List.tail (elements_onEnd ht)
        exact hkeep

/-! ## Pieces of a text -/

/-- A descriptor after a text. -/
def heard (chars : XmlStr) (continuation : Bool) (d : Descriptor) : Descriptor :=
  if d.isComplex then d
  else { d with value := if continuation then d.value ++ xmlToStdString chars else xmlToStdString chars }

theorem onPropertyCharacters_cons {d : Descriptor} {ds : List Descriptor} (hd : s.descriptors = d :: ds)
    (continuation : Bool) :
    onPropertyCharacters chars continuation s = .ok { s with descriptors := heard chars continuation d :: ds } := by
  have htop : s.topDescriptor = .ok d := by
    unfold topDescriptor
    rw [hd]
  unfold onPropertyCharacters heard
  rw [htop]
  change (if d.isComplex then _ else _) = _
  split
  · rw [← hd]
  · unfold setTopDescriptor
    rw [hd]
    rfl

/-- The second of two texts continues the first. -/
theorem heard_heard (chars chars' : XmlStr) (continuation : Bool) (d : Descriptor) :
    heard chars' true (heard chars continuation d) = heard (chars ++ chars') continuation d := by
  have hjoin : xmlToStdString (chars ++ chars') = xmlToStdString chars ++ xmlToStdString chars' := List.map_append
  unfold heard
  by_cases hd : d.isComplex
  · rw [if_pos hd, if_pos hd, if_pos hd]
  · rw [if_neg hd, if_neg hd]
    cases continuation with
    | false =>
        refine (if_neg hd).trans ?_
        change ({ d with value := xmlToStdString chars ++ xmlToStdString chars' } : Descriptor) = _
        rw [← hjoin]
        rfl
    | true =>
        refine (if_neg hd).trans ?_
        change ({ d with value := (d.value ++ xmlToStdString chars) ++ xmlToStdString chars' } : Descriptor) = _
        rw [List.append_assoc, ← hjoin]
        rfl

/-- Outside of items two texts in a row are one. -/
theorem characters_characters {chars' : XmlStr} (h : s.elements.head? ≠ some arrayItemTag) :
    (Handler.characters chars s >>= Handler.characters chars') = Handler.characters (chars ++ chars') s := by
  obtain ⟨elements, chunks, complexes, descriptors, complex⟩ := s
  cases elements with
  | nil => rfl
  | cons tag tags =>
      have hitem : tag ≠ arrayItemTag := fun he => h (congrArg some he)
      -- a property collects its text; every other element but an item ignores it
      by_cases hproperty : tag ≠ messageTag ∧ isPropertyTag tag
      · obtain ⟨hmessage, htag⟩ := hproperty
        have hon : ∀ (c : XmlStr) (t : Handler V), onCharacters tag c t = onPropertyCharacters c t.chunks t :=
          fun c t => (if_neg hmessage).trans (if_pos htag)
        unfold Handler.characters
        dsimp only
        rw [hon, hon]
        cases descriptors with
        | nil => rfl
        | cons d ds =>
            rw [onPropertyCharacters_cons rfl, onPropertyCharacters_cons rfl]
            change (onCharacters tag chars' _ >>= _) = _
            rw [hon, onPropertyCharacters_cons rfl]
            change Except.ok _ = Except.ok _
            rw [heard_heard]
      · have hon : ∀ (c : XmlStr) (t : Handler V), onCharacters tag c t = .ok t := fun c t => by
          unfold onCharacters
          by_cases hmessage : tag = messageTag
          · exact if_pos hmessage
          · rw [if_neg hmessage, if_neg (fun htag => hproperty ⟨hmessage, htag⟩), if_neg hitem]
            exact ite_self _
        unfold Handler.characters
        dsimp only
        rw [hon, hon]
        change (onCharacters tag chars' _ >>= _) = _
        rw [hon]
        rfl

/-- **The handler does not see in which pieces a text came**, the texts of items apart. -/
theorem parse_pieces {l m : List Sax} (h : Pieces s.elements l m) : parse L l s = parse L m s := by
  -- a callback leaves the elements as the relation has them, so the rest is the same by induction
  have hstep : ∀ {tags : List Str} {e : Sax} {l m : List Sax} {s : Handler V}, s.elements = tags →
      (∀ {s' : Handler V}, s'.elements = opened tags e → parse L l s' = parse L m s') →
      parse L (e :: l) s = parse L (e :: m) s := by
    intro tags e l m s htags hrest
    unfold parse
    rw [List.foldlM_cons, List.foldlM_cons]
    cases hs : step L s e with
    | error err => rfl
    | ok s'     => exact hrest (htags ▸ elements_step hs)
  generalize htags : s.elements = tags at h
  induction h generalizing s with
  | nil => rfl
  | startElement _ ih => exact hstep htags ih
  | endElement _ ih   => exact hstep htags ih
  | characters _ ih   => exact hstep htags ih
  | @cut tags chars chars' l m hitem _ ih =>
      rw [← ih htags]
      unfold parse
      rw [List.foldlM_cons, List.foldlM_cons]
      change (Handler.characters chars s >>= fun s => Handler.characters chars' s >>= fun s => l.foldlM (step L) s)
        = (Handler.characters (chars ++ chars') s >>= fun s => l.foldlM (step L) s)
      rw [← characters_characters (by rw [htags]; exact hitem), bind_assoc]

end Handler

end Smart

end Unicomm
