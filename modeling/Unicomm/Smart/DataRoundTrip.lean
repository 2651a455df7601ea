import Unicomm.Smart.Pieces
import Unicomm.Smart.Restored

/-!
# `Smart.DataRoundTrip` — what is written is read

The handler meets the callbacks of a written document: between two properties it is `Receptive`, and a property that has
gone by has changed the object on top (`onTop`) and nothing else of the state. So the run over a document follows the
document, and what the handler holds in the end is `restored` (`unserialize_document`).
-/

namespace Unicomm

namespace Smart

variable {V : Numbers}

theorem Simple.typeName_ne_messageTag (k : Simple) : k.typeName ≠ messageTag := by cases k <;> decide

theorem Simple.typeName_ne_complexTypeName (k : Simple) : k.typeName ≠ complexTypeName := by cases k <;> decide

theorem Simple.isPropertyTag_typeName (k : Simple) : isPropertyTag k.typeName = true := by cases k <;> decide

/-- The type of a descriptor is the tag that it was made for. -/
theorem Descriptor.simple?_typeName {k : Simple} {d : Descriptor} (h : d.type = k.typeName) : d.simple? = some k := by
  unfold Descriptor.simple?
  rw [h]
  cases k <;> rfl

theorem Descriptor.isComplex_typeName {k : Simple} {d : Descriptor} (h : d.type = k.typeName) : d.isComplex = false :=
  decide_eq_false (by rw [h]; exact k.typeName_ne_complexTypeName)

theorem Descriptor.isComplex_of_type {d : Descriptor} (h : d.type = complexTypeName) : d.isComplex = true :=
  decide_eq_true h

/-! ## Tags and attributes as they come out of the document -/

theorem xmlToStdString_typeName (k : Simple) : xmlToStdString (domString k.typeName) = k.typeName :=
  xmlToStdString_domString (by cases k <;> decide)

theorem xmlToStdString_complexTypeName : xmlToStdString (domString complexTypeName) = complexTypeName :=
  xmlToStdString_domString (by decide)

theorem xmlToStdString_messageTag : xmlToStdString (domString messageTag) = messageTag :=
  xmlToStdString_domString (by decide)

theorem xmlToStdString_arrayTag : xmlToStdString (domString arrayTag) = arrayTag :=
  xmlToStdString_domString (by decide)

theorem xmlToStdString_arrayItemTag : xmlToStdString (domString arrayItemTag) = arrayItemTag :=
  xmlToStdString_domString (by decide)

theorem getAttr_addattr {name : Str} (h : PlainText name) :
    getAttr (getAttribs [addattr nameAttr name]) nameAttr = name := by
  have hattribs : getAttribs [addattr nameAttr name] = [(nameAttr, domString name)] := by
    have hkey : xmlToStdString (domString nameAttr) = nameAttr := xmlToStdString_domString (by decide)
    unfold getAttribs addattr
    rw [List.map_singleton, Prod.map_apply, hkey]
    rfl
  unfold getAttr
  rw [hattribs, List.lookup_cons_self]
  exact xmlToStdString_domString h

/-- A name is read as it was written, no name as the empty one. -/
theorem getAttr_addpropattr {name : Str} (h : PlainText name) :
    getAttr (getAttribs (addpropattr name)) nameAttr = name := by
  unfold addpropattr
  split
  · next hnil => rw [hnil]; rfl
  · exact getAttr_addattr h

namespace Handler

variable (L : Lexical V) {s t : Handler V} {l m : List Sax} {e : Sax}

theorem step_startElement (tag : XmlStr) (attrs : Attributes) :
    step L s (.startElement tag attrs) = startElement L tag attrs s := rfl

theorem step_characters (chars : XmlStr) : step L s (.characters chars) = characters chars s := rfl

theorem step_endElement (tag : XmlStr) : step L s (.endElement tag) = endElement L s := rfl

theorem parse_nil (s : Handler V) : parse L [] s = .ok s := rfl

theorem parse_cons_of_ok (h : step L s e = .ok t) : parse L (e :: l) s = parse L l t := by
  unfold parse
  rw [List.foldlM_cons, h]
  rfl

theorem parse_append_of_ok (h : parse L l s = .ok t) : parse L (l ++ m) s = parse L m t := by
  unfold parse at h ⊢
  rw [List.foldlM_append, h]
  rfl

/-! ## Between two properties -/

/-- Change the object on top. -/
def onTop (f : Complex V → Complex V) (s : Handler V) : Handler V :=
  match s.complexes with
  | []           => s
  | none :: _    => { s with complex := f s.complex }
  | some c :: cs => { s with complexes := some (f c) :: cs }

/-- The handler waits for the properties of an object. -/
structure Receptive (s : Handler V) : Prop where
  fresh      : s.chunks = false
  object     : ∃ p ps, s.complexes = p :: ps
  descriptor : ∃ d ds, s.descriptors = d :: ds ∧ d.isArray = false

theorem onTop_onTop (f g : Complex V → Complex V) (s : Handler V) :
    (s.onTop f).onTop g = s.onTop (fun c => g (f c)) := by
  obtain ⟨elements, chunks, complexes, descriptors, complex⟩ := s
  rcases complexes with _ | ⟨_ | c, cs⟩ <;> rfl

theorem onTop_id (s : Handler V) : s.onTop (fun c => c) = s := by
  obtain ⟨elements, chunks, complexes, descriptors, complex⟩ := s
  rcases complexes with _ | ⟨_ | c, cs⟩ <;> rfl

theorem Receptive.onTop (h : Receptive s) (f : Complex V → Complex V) : Receptive (s.onTop f) := by
  obtain ⟨elements, chunks, complexes, descriptors, complex⟩ := s
  obtain ⟨hfresh, ⟨p, ps, rfl⟩, hdescriptor⟩ := h
  cases p with
  | none   => exact ⟨hfresh, ⟨_, _, rfl⟩, hdescriptor⟩
  | some c => exact ⟨hfresh, ⟨_, _, rfl⟩, hdescriptor⟩

/-- Callbacks that read a property: they end where they began, with the object on top changed. -/
def Reads (l : List Sax) (f : Complex V → Complex V) : Prop :=
  ∀ s : Handler V, Receptive s → parse L l s = .ok (s.onTop f)

variable {L}

theorem Reads.nil : Reads L [] (fun c => c) := fun s _ => congrArg Except.ok (onTop_id s).symm

theorem Reads.append {f g : Complex V → Complex V} (hl : Reads L l f) (hm : Reads L m g) :
    Reads L (l ++ m) (fun c => g (f c)) := by
  intro s hs
  rw [parse_append_of_ok L (hl s hs), hm _ (hs.onTop f), onTop_onTop]

/-- A list of properties, one after the other. -/
theorem Reads.all {α : Type} {write : α → List Xml} {f : α → Complex V → Complex V} {xs : List α}
    (h : ∀ x ∈ xs, Reads L (Xml.eventsAll (write x)) (f x)) :
    Reads L (Xml.eventsAll (xs.flatMap write)) (fun c => xs.foldl (fun c x => f x c) c) := by
  induction xs with
  | nil => exact Reads.nil
  | cons x xs ih =>
      rw [List.flatMap_cons, Xml.eventsAll_append]
      exact (h x List.mem_cons_self).append (ih (fun y hy => h y (List.mem_cons_of_mem x hy)))

/-! ## The callbacks, one by one -/

section

variable (L)
variable {tags : List Str} {chunks : Bool} {cs ps : List (Option (Complex V))} {p : Option (Complex V)}
variable {d : Descriptor} {ds : List Descriptor} {root : Complex V} {tag : XmlStr}

theorem topComplex_eq : topComplex ⟨tags, chunks, p :: ps, ds, root⟩ = .ok (p.getD root) := by
  cases p <;> rfl

theorem setTopComplex_eq (f : Complex V → Complex V) :
    setTopComplex (f (p.getD root)) ⟨tags, chunks, p :: ps, ds, root⟩ = onTop f ⟨tags, chunks, p :: ps, ds, root⟩ := by
  cases p <;> rfl

/-- A property of a simple type begins. -/
theorem step_startProperty (k : Simple) {name : Str} (hname : PlainText name) :
    step L ⟨tags, chunks, cs, ds, root⟩ (.startElement (domString k.typeName) (addpropattr name))
      = .ok ⟨k.typeName :: tags, false, cs, ⟨name, k.typeName, false, [], []⟩ :: ds, root⟩ := by
  have hcomplex : ∀ n, (⟨n, k.typeName, false, [], []⟩ : Descriptor).isComplex = false := fun n =>
    Descriptor.isComplex_typeName rfl
  rw [step_startElement]
  unfold startElement onPropertyStart
  simp only [xmlToStdString_typeName, if_neg k.typeName_ne_messageTag, if_pos k.isPropertyTag_typeName,
    getAttr_addpropattr hname, hcomplex, Bool.false_eq_true, if_false]

/-- The text of a property is its value. -/
theorem parse_propertyText (k : Simple) (name : Str) {text : Str} (hplain : PlainText text) :
    parse L (Xml.text (domString text)).events
        ⟨k.typeName :: tags, false, cs, ⟨name, k.typeName, false, [], []⟩ :: ds, root⟩
      = .ok ⟨k.typeName :: tags, decide (text ≠ []), cs, ⟨name, k.typeName, false, text, []⟩ :: ds, root⟩ := by
  unfold Xml.events
  by_cases htext : text = []
  · rw [if_pos ((domString_eq_nil_iff hplain).mpr htext), htext]
    rfl
  · have hcomplex : (⟨name, k.typeName, false, [], []⟩ : Descriptor).isComplex = false :=
      Descriptor.isComplex_typeName rfl
    rw [if_neg (fun hnil => htext ((domString_eq_nil_iff hplain).mp hnil))]
    let s' : Handler V := ⟨k.typeName :: tags, true, cs, ⟨name, k.typeName, false, text, []⟩ :: ds, root⟩
    refine (parse_cons_of_ok L (t := s') ?_).trans ?_
    · rw [step_characters]
      unfold characters onCharacters
      simp only [if_neg k.typeName_ne_messageTag, if_pos k.isPropertyTag_typeName]
      rw [onPropertyCharacters_cons rfl]
      unfold heard
      rw [if_neg (by rw [hcomplex]; decide), xmlToStdString_domString hplain]
      rfl
    · rw [parse_nil, decide_eq_true htext]

/-- A property of a simple type is over: its descriptor is what it is set from. -/
theorem step_endProperty {k : Simple} (hd : d.type = k.typeName) {f : Complex V → Complex V}
    (hset : ∀ c, setProperty L c d = .ok (f c)) :
    step L ⟨k.typeName :: tags, chunks, p :: ps, d :: ds, root⟩ (.endElement tag)
      = .ok (onTop f ⟨tags, false, p :: ps, ds, root⟩) := by
  have hcomplex : ¬ d.isComplex = true := by
    rw [Descriptor.isComplex_typeName hd]
    decide
  have hend : setTopProperty L ⟨k.typeName :: tags, false, p :: ps, d :: ds, root⟩
      = .ok (onTop f ⟨k.typeName :: tags, false, p :: ps, ds, root⟩) := by
    unfold setTopProperty
    rw [topComplex_eq]
    change (if d.isComplex then _ else _) = _
    rw [if_neg hcomplex, hset]
    change Except.ok (popDescriptor (setTopComplex (f (p.getD root)) _)) = _
    rw [setTopComplex_eq]
    cases p <;> rfl
  rw [step_endElement]
  unfold endElement onEnd
  simp only [if_neg k.typeName_ne_messageTag, if_pos k.isPropertyTag_typeName]
  rw [hend]
  cases p <;> rfl

/-- The items of an array begin. -/
theorem step_startArray :
    step L ⟨tags, chunks, cs, d :: ds, root⟩ (.startElement (domString arrayTag) [])
      = .ok ⟨arrayTag :: tags, false, cs, { d with isArray := true } :: ds, root⟩ := by
  rw [step_startElement]
  unfold startElement
  rw [xmlToStdString_arrayTag]
  rfl

/-- An item begins. -/
theorem step_startItem (hd : d.isArray = true) :
    step L ⟨tags, chunks, cs, d :: ds, root⟩ (.startElement (domString arrayItemTag) [])
      = .ok ⟨arrayItemTag :: tags, false, cs, d :: ds, root⟩ := by
  rw [step_startElement]
  unfold startElement
  rw [xmlToStdString_arrayItemTag]
  exact if_pos hd

/-- An item is over. -/
theorem step_endItem (hd : d.isArray = true) :
    step L ⟨arrayItemTag :: tags, chunks, cs, d :: ds, root⟩ (.endElement tag)
      = .ok ⟨tags, false, cs, d :: ds, root⟩ := by
  have hend : requireArray ⟨arrayItemTag :: tags, false, cs, d :: ds, root⟩
      = .ok ⟨arrayItemTag :: tags, false, cs, d :: ds, root⟩ := if_pos hd
  rw [step_endElement]
  change (requireArray ⟨arrayItemTag :: tags, false, cs, d :: ds, root⟩ >>= _) = _
  rw [hend]
  rfl

/-- The items are over. -/
theorem step_endArray (hd : d.isArray = true) :
    step L ⟨arrayTag :: tags, chunks, cs, d :: ds, root⟩ (.endElement tag)
      = .ok ⟨tags, false, cs, d :: ds, root⟩ := by
  have hend : requireArray ⟨arrayTag :: tags, false, cs, d :: ds, root⟩
      = .ok ⟨arrayTag :: tags, false, cs, d :: ds, root⟩ := if_pos hd
  rw [step_endElement]
  change (requireArray ⟨arrayTag :: tags, false, cs, d :: ds, root⟩ >>= _) = _
  rw [hend]
  rfl

/-- The text of an item, if there is one. -/
theorem parse_itemText (hd : d.isComplex = false) {text : Str} (hplain : PlainText text) :
    parse L (Xml.text (domString text)).events ⟨arrayItemTag :: tags, false, cs, d :: ds, root⟩
      = .ok ⟨arrayItemTag :: tags, decide (text ≠ []), cs,
          { d with values := d.values ++ if text = [] then [] else [text] } :: ds, root⟩ := by
  unfold Xml.events
  by_cases htext : text = []
  · rw [if_pos ((domString_eq_nil_iff hplain).mpr htext), htext, if_pos rfl, List.append_nil]
    rfl
  · rw [if_neg (fun hnil => htext ((domString_eq_nil_iff hplain).mp hnil)), if_neg htext, decide_eq_true htext]
    refine (parse_cons_of_ok L ?_).trans (parse_nil L _)
    rw [step_characters]
    change ((if d.isComplex then _ else _) >>= _) = _
    rw [if_neg (by rw [hd]; decide), xmlToStdString_domString hplain]
    rfl

end

/-! ## Properties and arrays of simple types -/

variable {k : Simple}

/-- **A property.** -/
theorem reads_property {p : Str × V.Val k} (hname : PlainText p.1) (htext : PlainText (L.print k p.2)) :
    Reads L (Xml.eventsAll (serializeProperty L k p))
      (fun c => if p.1 ≠ nameProperty then c.setSimple k p.1 p.2 else c) := by
  obtain ⟨name, v⟩ := p
  unfold serializeProperty
  by_cases hother : name ≠ nameProperty
  · rw [if_pos hother, eventsAll_element, eventsAll_singleton]
    simp only [if_pos hother]
    rintro ⟨tags, chunks, cs, ds, root⟩ ⟨rfl, ⟨q, qs, rfl⟩, -⟩
    have hset : ∀ c : Complex V,
        setProperty L c ⟨name, k.typeName, false, L.print k v, []⟩ = .ok (c.setSimple k name v) := by
      intro c
      unfold setProperty
      rw [Descriptor.simple?_typeName rfl]
      change (L.parse k (L.print k v) >>= _) = _
      rw [L.parse_print]
      rfl
    rw [parse_cons_of_ok L (step_startProperty L k hname), parse_append_of_ok L (parse_propertyText L k name htext)]
    exact parse_cons_of_ok L (step_endProperty L rfl hset)
  · rw [if_neg hother]
    simp only [if_neg hother]
    exact Reads.nil

/-- What the items of an array leave behind. -/
theorem parse_items {d : Descriptor} (hcomplex : d.isComplex = false) (harray : d.isArray = true)
    {tags : List Str} {cs : List (Option (Complex V))} {ds : List Descriptor} {root : Complex V} {vs : List (V.Val k)}
    (hvs : ∀ v ∈ vs, PlainText (L.print k v)) :
    parse L (Xml.eventsAll (serializeItems L k vs)) ⟨tags, false, cs, d :: ds, root⟩
      = .ok ⟨tags, false, cs,
          { d with values := d.values ++ (vs.map (L.print k)).filter (fun s => s ≠ []) } :: ds, root⟩ := by
  induction vs generalizing d with
  | nil =>
      change Except.ok _ = Except.ok _
      rw [List.map_nil, List.filter_nil, List.append_nil]
  | cons v vs ih =>
      obtain ⟨hv, hvs⟩ := List.forall_mem_cons.mp hvs
      let d' : Descriptor := { d with values := d.values ++ if L.print k v = [] then [] else [L.print k v] }
      have hhead : serializeItems L k (v :: vs)
          = [.element (domString arrayItemTag) [] [.text (domString (L.print k v))]] ++ serializeItems L k vs := rfl
      rw [hhead, Xml.eventsAll_append, eventsAll_element, eventsAll_singleton, List.cons_append, List.append_assoc,
        parse_cons_of_ok L (step_startItem L harray), parse_append_of_ok L (parse_itemText L hcomplex hv)]
      refine (parse_cons_of_ok L (step_endItem L (d := d') harray)).trans ((ih (d := d') hcomplex harray hvs).trans ?_)
      have hvalues : d'.values ++ (vs.map (L.print k)).filter (fun s => s ≠ [])
          = d.values ++ ((v :: vs).map (L.print k)).filter (fun s => s ≠ []) := by
        change (d.values ++ if L.print k v = [] then [] else [L.print k v]) ++ _ = _
        rw [List.map_cons, List.append_assoc]
        by_cases hv : L.print k v = []
        · rw [if_pos hv, List.filter_cons_of_neg (by rw [hv]; decide), List.nil_append]
        · rw [if_neg hv, List.filter_cons_of_pos (p := fun s : Str => s ≠ []) (decide_eq_true hv),
            List.singleton_append]
      rw [hvalues]

/-- The texts that are reported are those of the values that arrive. -/
theorem filter_print (vs : List (V.Val k)) :
    (vs.map (L.print k)).filter (fun s => s ≠ []) = (Complex.restoredValues k vs).map (L.print k) := by
  have hnumber : k ≠ .string → (vs.map (L.print k)).filter (fun s => s ≠ []) = vs.map (L.print k) := by
    intro hk
    refine List.filter_eq_self.mpr (fun s hs => decide_eq_true ?_)
    obtain ⟨v, -, rfl⟩ := List.mem_map.mp hs
    exact L.print_ne_nil hk v
  cases k with
  | string =>
      change (List.map id vs).filter _ = List.map id _
      rw [List.map_id, List.map_id]
      rfl
  | int    => exact hnumber (by decide)
  | uint   => exact hnumber (by decide)
  | double => exact hnumber (by decide)

/-- What is written is read back, value by value. -/
theorem mapM_parse_print (vs : List (V.Val k)) : (vs.map (L.print k)).mapM (L.parse k) = .ok vs := by
  induction vs with
  | nil => rfl
  | cons v vs ih =>
      rw [List.map_cons, List.mapM_cons, L.parse_print, ih]
      rfl

/-- **An array.** -/
theorem reads_array {p : Str × List (V.Val k)} (hname : PlainText p.1)
    (htexts : ∀ v ∈ p.2, PlainText (L.print k v)) :
    Reads L (Xml.eventsAll (serializeArray L k p)) (fun c => c.setArray k p.1 (Complex.restoredValues k p.2)) := by
  obtain ⟨name, vs⟩ := p
  unfold serializeArray
  rw [eventsAll_element, eventsAll_element]
  rintro ⟨tags, chunks, cs, ds, root⟩ ⟨rfl, ⟨q, qs, rfl⟩, -⟩
  let d : Descriptor := ⟨name, k.typeName, true, [], (vs.map (L.print k)).filter (fun s => s ≠ [])⟩
  have hset : ∀ c : Complex V, setProperty L c d = .ok (c.setArray k name (Complex.restoredValues k vs)) := by
    intro c
    unfold setProperty
    rw [Descriptor.simple?_typeName rfl]
    change (((vs.map (L.print k)).filter (fun s => s ≠ [])).mapM (L.parse k) >>= _) = _
    rw [filter_print, mapM_parse_print]
    rfl
  rw [parse_cons_of_ok L (step_startProperty L k hname), List.cons_append, parse_cons_of_ok L (step_startArray L),
    List.append_assoc, parse_append_of_ok L (parse_items (Descriptor.isComplex_typeName rfl) rfl htexts)]
  refine (parse_cons_of_ok L (step_endArray L rfl)).trans ?_
  exact parse_cons_of_ok L (step_endProperty L (d := d) rfl hset)

/-! ## Objects within objects -/

section

variable (L)
variable {tags : List Str} {chunks : Bool} {cs ps : List (Option (Complex V))} {p : Option (Complex V)}
variable {c t : Complex V} {d : Descriptor} {ds : List Descriptor} {root : Complex V} {name : Str} {tag : XmlStr}

/-- An object begins: it is new, and has its name. -/
theorem step_startComplex (hname : PlainText name) :
    step L ⟨tags, chunks, cs, ds, root⟩ (.startElement (domString complexTypeName) (addpropattr name))
      = .ok ⟨complexTypeName :: tags, false, some (Complex.empty.setName name) :: cs,
          ⟨name, complexTypeName, false, [], []⟩ :: ds, root⟩ := by
  rw [step_startElement]
  unfold startElement
  rw [xmlToStdString_complexTypeName]
  change setPredefinedName L (getAttribs (addpropattr name)) ⟨complexTypeName :: tags, false, some .empty :: cs,
    ⟨getAttr (getAttribs (addpropattr name)) nameAttr, complexTypeName, false, [], []⟩ :: ds, root⟩ = _
  unfold setPredefinedName
  rw [getAttr_addpropattr hname]
  rfl

/-- An object within an object is over: it is stored under its name. -/
theorem step_endComplex {d' : Descriptor} (hd' : d'.type = complexTypeName) (hplain : d'.isArray = false)
    (hd : d.isArray = false) (hname : c.getName = .ok name) :
    step L ⟨complexTypeName :: tags, chunks, some c :: p :: ps, d' :: d :: ds, root⟩ (.endElement tag)
      = .ok (onTop (fun t => t.setComplex name c) ⟨tags, false, p :: ps, d :: ds, root⟩) := by
  have hend : setTopProperty L ⟨complexTypeName :: tags, false, some c :: p :: ps, d' :: d :: ds, root⟩
      = .ok (onTop (fun t => t.setComplex name c) ⟨complexTypeName :: tags, false, p :: ps, d :: ds, root⟩) := by
    unfold setTopProperty
    change (if d'.isComplex then if d'.isArray then _ else _ else _) = _
    rw [if_pos (Descriptor.isComplex_of_type hd'), if_neg (by rw [hplain]; decide)]
    change (topComplex ⟨complexTypeName :: tags, false, p :: ps, d :: ds, root⟩ >>= _) = _
    rw [topComplex_eq]
    change (if d.isArray then _ else _) = _
    rw [if_neg (by rw [hd]; decide), hname]
    change Except.ok (setTopComplex _ _) = _
    exact congrArg Except.ok (setTopComplex_eq (fun t => t.setComplex name c))
  rw [step_endElement]
  change (setTopProperty L _ >>= _) = _
  rw [hend]
  cases p <;> rfl

/-- An object within an array is over: it is the next item. -/
theorem step_endComplexItem {d' : Descriptor} (hd' : d'.type = complexTypeName) (hplain : d'.isArray = false)
    (hd : d.isArray = true) (hname : t.getName = .ok name) :
    step L ⟨complexTypeName :: tags, chunks, some c :: some t :: ps, d' :: d :: ds, root⟩ (.endElement tag)
      = .ok ⟨tags, false, some (t.setComplexArray name (ownArray t name ++ [c])) :: ps, d :: ds, root⟩ := by
  rw [step_endElement]
  change (setTopProperty L ⟨complexTypeName :: tags, false, some c :: some t :: ps, d' :: d :: ds, root⟩ >>= _) = _
  unfold setTopProperty
  change ((if d'.isComplex then if d'.isArray then _ else _ else _) >>= _) = _
  rw [if_pos (Descriptor.isComplex_of_type hd'), if_neg (by rw [hplain]; decide)]
  change ((if d.isArray then t.getName >>= _ else _) >>= _) = _
  rw [if_pos hd, hname]
  rfl

/-- An array of objects is over: it is stored under its name. -/
theorem step_endComplexArray (hd : d.type = complexTypeName) (harray : d.isArray = true)
    (hname : t.getName = .ok name) :
    step L ⟨complexTypeName :: tags, chunks, some t :: p :: ps, d :: ds, root⟩ (.endElement tag)
      = .ok (onTop (fun c => c.setComplexArray name (ownArray t name)) ⟨tags, false, p :: ps, ds, root⟩) := by
  have hend : setTopProperty L ⟨complexTypeName :: tags, false, some t :: p :: ps, d :: ds, root⟩
      = .ok (onTop (fun c => c.setComplexArray name (ownArray t name))
          ⟨complexTypeName :: tags, false, p :: ps, ds, root⟩) := by
    unfold setTopProperty
    change (if d.isComplex then if d.isArray then t.getName >>= _ else _ else _) = _
    rw [if_pos (Descriptor.isComplex_of_type hd), if_pos harray, hname]
    change (topComplex ⟨complexTypeName :: tags, false, p :: ps, ds, root⟩ >>= _) = _
    rw [topComplex_eq]
    change Except.ok (setTopComplex _ _) = _
    exact congrArg Except.ok (setTopComplex_eq (fun c => c.setComplexArray name (ownArray t name)))
  rw [step_endElement]
  change (setTopProperty L _ >>= _) = _
  rw [hend]
  cases p <;> rfl

end

/-! ## The run over an object -/

/-- What the properties of an object add to another one. -/
def merge (c t : Complex V) : Complex V :=
  .mk (fun k => SortedMap.setAll (t.simple k) (Complex.properties (c.simple k)))
    (fun k => SortedMap.setAll (t.arrays k) ((c.arrays k).map (fun p => (p.1, Complex.restoredValues k p.2))))
    (SortedMap.setAll t.complexes (Complex.restoredComplexes c.complexes))
    (SortedMap.setAll t.complexArrays (Complex.restoredComplexArrays c.complexArrays))

/-- **An object that was new and had its name is what arrives.** -/
theorem merge_named {c : Complex V} (h : c.WellFormed) (name : Str) :
    merge c (Complex.empty.setName name) = c.restored name := by
  cases h with
  | @mk simple arrays complexes complexArrays hsimple harrays hcomplexes hcomplexArrays _ _ =>
      unfold merge Complex.restored
      congr 1
      · funext k
        cases k with
        | string =>
            have hno : SortedMap.get? nameProperty (Complex.properties (simple .string)) = none := by
              rw [Complex.get?_properties]
              exact if_neg (fun hne => hne rfl)
            exact SortedMap.setAll_singleton (Complex.sorted_properties (hsimple .string)) hno
        | _ => exact SortedMap.setAll_nil (Complex.sorted_properties (hsimple _))
      · funext k
        exact SortedMap.setAll_nil ((harrays k).map (fun _ => rfl))
      · have hsorted : SortedMap.Sorted (Complex.restoredComplexes complexes) := by
          rw [Complex.restoredComplexes_eq_map]
          exact hcomplexes.map (fun _ => rfl)
        exact SortedMap.setAll_nil hsorted
      · have hsorted : SortedMap.Sorted (Complex.restoredComplexArrays complexArrays) := by
          rw [Complex.restoredComplexArrays_eq_map]
          exact hcomplexArrays.map (fun _ => rfl)
        exact SortedMap.setAll_nil hsorted

/-- Set all properties of a simple type that are written. -/
def addProperties {k : Simple} (ps : List (Str × V.Val k)) (c : Complex V) : Complex V :=
  .mk (Function.update c.simple k (SortedMap.setAll (c.simple k) (Complex.properties ps))) c.arrays c.complexes
    c.complexArrays

/-- Set all arrays of a simple type. -/
def addArrays {k : Simple} (ps : List (Str × List (V.Val k))) (c : Complex V) : Complex V :=
  .mk c.simple
    (Function.update c.arrays k (SortedMap.setAll (c.arrays k) (ps.map (fun p => (p.1, Complex.restoredValues k p.2)))))
    c.complexes c.complexArrays

theorem foldl_setSimple {k : Simple} (ps : List (Str × V.Val k)) (c : Complex V) :
    ps.foldl (fun c p => if p.1 ≠ nameProperty then c.setSimple k p.1 p.2 else c) c = addProperties ps c := by
  induction ps generalizing c with
  | nil =>
      cases c
      exact congrArg (fun simple => Complex.mk simple _ _ _) (Function.update_eq_self k _).symm
  | cons p ps ih =>
      rw [List.foldl_cons, ih]
      unfold addProperties
      by_cases hp : p.1 ≠ nameProperty
      · have hcons : Complex.properties (p :: ps) = p :: Complex.properties ps :=
          List.filter_cons_of_pos (p := fun p : Str × V.Val k => p.1 ≠ nameProperty) (decide_eq_true hp)
        rw [if_pos hp, hcons]
        simp only [Complex.setSimple, Complex.simple, Complex.arrays, Complex.complexes, Complex.complexArrays,
          Function.update_idem, Function.update_self]
        rfl
      · have hcons : Complex.properties (p :: ps) = Complex.properties ps :=
          List.filter_cons_of_neg (p := fun p : Str × V.Val k => p.1 ≠ nameProperty) (by simpa using hp)
        rw [if_neg hp, hcons]

theorem foldl_setArray {k : Simple} (ps : List (Str × List (V.Val k))) (c : Complex V) :
    ps.foldl (fun c p => c.setArray k p.1 (Complex.restoredValues k p.2)) c = addArrays ps c := by
  induction ps generalizing c with
  | nil =>
      cases c
      exact congrArg (fun arrays => Complex.mk _ arrays _ _) (Function.update_eq_self k _).symm
  | cons p ps ih =>
      rw [List.foldl_cons, ih]
      unfold addArrays
      simp only [Complex.setArray, Complex.simple, Complex.arrays, Complex.complexes, Complex.complexArrays,
        Function.update_idem, Function.update_self, List.map_cons]
      rfl

theorem foldl_setComplex (ps : List (Str × Complex V)) (c : Complex V) :
    ps.foldl (fun c p => c.setComplex p.1 (p.2.restored p.1)) c
      = .mk c.simple c.arrays (SortedMap.setAll c.complexes (Complex.restoredComplexes ps)) c.complexArrays := by
  induction ps generalizing c with
  | nil => cases c; rfl
  | cons p ps ih =>
      rw [List.foldl_cons, ih]
      rfl

theorem foldl_setComplexArray (ps : List (Str × List (Complex V))) (c : Complex V) :
    ps.foldl (fun c p => c.setComplexArray p.1 (Complex.restoredItems p.2)) c
      = .mk c.simple c.arrays c.complexes (SortedMap.setAll c.complexArrays (Complex.restoredComplexArrays ps)) := by
  induction ps generalizing c with
  | nil => cases c; rfl
  | cons p ps ih =>
      rw [List.foldl_cons, ih]
      rfl

/-- All properties of a simple type. -/
theorem reads_properties {k : Simple} {ps : List (Str × V.Val k)} (hnames : ∀ p ∈ ps, PlainText p.1)
    (htexts : ∀ p ∈ ps, PlainText (L.print k p.2)) :
    Reads L (Xml.eventsAll (serializeProperties L k ps)) (addProperties ps) := by
  rw [← funext (foldl_setSimple ps)]
  exact Reads.all (fun p hp => reads_property (hnames p hp) (htexts p hp))

/-- All arrays of a simple type. -/
theorem reads_arrays {k : Simple} {ps : List (Str × List (V.Val k))} (hnames : ∀ p ∈ ps, PlainText p.1)
    (htexts : ∀ p ∈ ps, ∀ v ∈ p.2, PlainText (L.print k v)) :
    Reads L (Xml.eventsAll (serializeArrays L k ps)) (addArrays ps) := by
  rw [← funext (foldl_setArray ps)]
  exact Reads.all (fun p hp => reads_array (hnames p hp) (htexts p hp))

/-- **A complex property**, given that the properties of the object are read. -/
theorem reads_complex {p : Str × Complex V} (hplain : PlainText p.1) (hwf : p.2.WellFormed)
    (hchildren : Reads L (Xml.eventsAll (p.2.serialize L)) (merge p.2)) :
    Reads L (Xml.eventsAll [.element (domString complexTypeName) (addpropattr p.1) (p.2.serialize L)])
      (fun c => c.setComplex p.1 (p.2.restored p.1)) := by
  obtain ⟨name, c⟩ := p
  rw [eventsAll_element]
  rintro ⟨tags, chunks, cs, ds, root⟩ ⟨rfl, ⟨q, qs, rfl⟩, ⟨d, ds, rfl, hd⟩⟩
  let d' : Descriptor := ⟨name, complexTypeName, false, [], []⟩
  let s : Handler V :=
    ⟨complexTypeName :: tags, false, some (Complex.empty.setName name) :: q :: qs, d' :: d :: ds, root⟩
  have hs : Receptive s := ⟨rfl, ⟨_, _, rfl⟩, ⟨_, _, rfl, rfl⟩⟩
  have hobject : s.onTop (merge c)
      = ⟨complexTypeName :: tags, false, some (c.restored name) :: q :: qs, d' :: d :: ds, root⟩ := by
    rw [← merge_named hwf]
    rfl
  rw [parse_cons_of_ok L (step_startComplex L hplain), parse_append_of_ok L (hchildren s hs), hobject]
  exact parse_cons_of_ok L (step_endComplex L rfl rfl hd (Complex.getName_restored name c))

/-- What is stored under an object's own name. -/
theorem ownArray_setComplexArray (t : Complex V) (name : Str) (ds : List (Complex V)) :
    ownArray (t.setComplexArray name ds) name = ds :=
  congrArg (fun ds => Option.getD ds []) (SortedMap.get?_set_self name ds t.complexArrays)

/-- The items of an array of objects collect in the object that stands for the array. -/
theorem parse_complexItems {d : Descriptor} (harray : d.isArray = true)
    {tags : List Str} {ps : List (Option (Complex V))} {ds : List Descriptor} {root t : Complex V} {name : Str}
    (hname : t.getName = .ok name) {cs : List (Complex V)}
    (hcs : ∀ c ∈ cs, PlainText c.getSafeName ∧ c.WellFormed ∧ Reads L (Xml.eventsAll (c.serialize L)) (merge c)) :
    ∃ t' : Complex V,
      parse L (Xml.eventsAll (Complex.serializeComplexItems L cs)) ⟨tags, false, some t :: ps, d :: ds, root⟩
        = .ok ⟨tags, false, some t' :: ps, d :: ds, root⟩ ∧
      t'.getName = .ok name ∧ ownArray t' name = ownArray t name ++ Complex.restoredItems cs := by
  induction cs generalizing t with
  | nil => exact ⟨t, rfl, hname, (List.append_nil _).symm⟩
  | cons c cs ih =>
      obtain ⟨⟨hplain, hwf, hread⟩, hcs⟩ := List.forall_mem_cons.mp hcs
      let d' : Descriptor := ⟨c.getSafeName, complexTypeName, false, [], []⟩
      let item : Complex V := c.restored c.getSafeName
      let t₁ := t.setComplexArray name (ownArray t name ++ [item])
      let s : Handler V := ⟨complexTypeName :: arrayItemTag :: tags, false,
        some (Complex.empty.setName c.getSafeName) :: some t :: ps, d' :: d :: ds, root⟩
      have hs : Receptive s := ⟨rfl, ⟨_, _, rfl⟩, ⟨_, _, rfl, rfl⟩⟩
      have hobject : s.onTop (merge c) = ⟨complexTypeName :: arrayItemTag :: tags, false,
          some item :: some t :: ps, d' :: d :: ds, root⟩ := by
        change _ = (⟨_, _, some (c.restored c.getSafeName) :: _, _, _⟩ : Handler V)
        rw [← merge_named hwf]
        rfl
      have hhead : Complex.serializeComplexItems L (c :: cs)
          = [.element (domString arrayItemTag) []
              [.element (domString complexTypeName) (addpropattr c.getSafeName) (c.serialize L)]]
            ++ Complex.serializeComplexItems L cs := rfl
      obtain ⟨t', hrun, hname', hown⟩ := ih (t := t₁) hname hcs
      refine ⟨t', ?_, hname', ?_⟩
      · rw [hhead, Xml.eventsAll_append, eventsAll_element, eventsAll_element, List.cons_append, List.cons_append,
          parse_cons_of_ok L (step_startItem L harray), List.cons_append,
          parse_cons_of_ok L (step_startComplex L hplain), List.append_assoc, List.append_assoc,
          parse_append_of_ok L (hread s hs), hobject]
        refine (parse_cons_of_ok L (step_endComplexItem L rfl rfl harray hname)).trans ?_
        exact (parse_cons_of_ok L (step_endItem L harray)).trans hrun
      · rw [hown, ownArray_setComplexArray, List.append_assoc]
        rfl

/-- **An array of objects**, given that the properties of each are read. -/
theorem reads_complexArray {p : Str × List (Complex V)} (hplain : PlainText p.1)
    (hcs : ∀ c ∈ p.2, PlainText c.getSafeName ∧ c.WellFormed ∧ Reads L (Xml.eventsAll (c.serialize L)) (merge c)) :
    Reads L (Xml.eventsAll [.element (domString complexTypeName) (addpropattr p.1)
        [.element (domString arrayTag) [] (Complex.serializeComplexItems L p.2)]])
      (fun c => c.setComplexArray p.1 (Complex.restoredItems p.2)) := by
  obtain ⟨name, cs⟩ := p
  rw [eventsAll_element, eventsAll_element]
  rintro ⟨tags, chunks, qs, ds, root⟩ ⟨rfl, ⟨q, qs, rfl⟩, -⟩
  let d : Descriptor := ⟨name, complexTypeName, true, [], []⟩
  have hempty : (Complex.empty.setName name : Complex V).getName = .ok name := Complex.getName_setName .empty name
  obtain ⟨t, hrun, hname, hown⟩ : ∃ t : Complex V,
      parse L (Xml.eventsAll (Complex.serializeComplexItems L cs))
          ⟨arrayTag :: complexTypeName :: tags, false, some (Complex.empty.setName name) :: q :: qs, d :: ds, root⟩
        = .ok ⟨arrayTag :: complexTypeName :: tags, false, some t :: q :: qs, d :: ds, root⟩ ∧
      t.getName = .ok name ∧ ownArray t name = ownArray (Complex.empty.setName name) name ++ Complex.restoredItems cs :=
    parse_complexItems rfl hempty hcs
  rw [parse_cons_of_ok L (step_startComplex L hplain), List.cons_append, parse_cons_of_ok L (step_startArray L),
    List.append_assoc, parse_append_of_ok L hrun]
  refine (parse_cons_of_ok L (step_endArray L rfl)).trans ?_
  refine (parse_cons_of_ok L (step_endComplexArray L (d := d) rfl rfl hname)).trans ?_
  rw [hown]
  rfl

/-- **The properties of an object.** The induction is on the object: those in it are read before. -/
theorem reads_serialize {c : Complex V} (h : c.WellFormed) (hplain : c.Plain) :
    Reads L (Xml.eventsAll (c.serialize L)) (merge c) := by
  induction h with
  | @mk simple arrays complexes complexArrays _ _ _ _ hcomplexes hcomplexArrays ihcomplexes ihcomplexArrays =>
      cases hplain with
      | mk hnames htexts hanames hatexts hcnames hcanames hcplain hcaplain =>
      have hproperties : ∀ k,
          Reads L (Xml.eventsAll (serializeProperties L k (simple k))) (addProperties (simple k)) := by
        refine fun k => reads_properties (hnames k) (fun p hp => Complex.print_plain ?_)
        rintro rfl
        exact htexts p hp
      have harrays : ∀ k, Reads L (Xml.eventsAll (serializeArrays L k (arrays k))) (addArrays (arrays k)) := by
        refine fun k => reads_arrays (hanames k) (fun p hp v hv => Complex.print_plain ?_)
        rintro rfl
        exact hatexts p hp v hv
      have hobjects : Reads L (Xml.eventsAll (Complex.serializeComplexes L complexes)) (fun c =>
          .mk c.simple c.arrays (SortedMap.setAll c.complexes (Complex.restoredComplexes complexes))
            c.complexArrays) := by
        rw [Complex.serializeComplexes_eq_flatMap, ← funext (foldl_setComplex complexes)]
        exact Reads.all (fun p hp =>
          reads_complex (hcnames p hp) (hcomplexes p hp) (ihcomplexes p hp (hcplain p hp)))
      have hobjectArrays : Reads L (Xml.eventsAll (Complex.serializeComplexArrays L complexArrays)) (fun c =>
          .mk c.simple c.arrays c.complexes
            (SortedMap.setAll c.complexArrays (Complex.restoredComplexArrays complexArrays))) := by
        rw [Complex.serializeComplexArrays_eq_flatMap, ← funext (foldl_setComplexArray complexArrays)]
        exact Reads.all (fun p hp => reads_complexArray (hcanames p hp) (fun c hc =>
          ⟨(hcaplain p hp c hc).getSafeName, hcomplexArrays p hp c hc,
            ihcomplexArrays p hp c hc (hcaplain p hp c hc)⟩))
      have hall := (((((((((hproperties .int).append (hproperties .uint)).append (hproperties .double)).append
        (hproperties .string)).append hobjects).append (harrays .int)).append (harrays .uint)).append
        (harrays .double)).append (harrays .string)).append hobjectArrays
      rw [Complex.serialize]
      simp only [Xml.eventsAll_append]
      refine (congrArg (Reads L _) ?_).mp hall
      -- every step changes one of the maps, and together they change each once
      funext c
      unfold merge
      congr 1
      · funext k
        cases k <;> rfl
      · funext k
        cases k <;> rfl

/-! ## Samples -/

/-- Numbers that are written in decimal. -/
abbrev decimalNumbers : Numbers := ⟨BitVec 32, BitVec 32, BitVec 32⟩

def decimal : Lexical decimalNumbers := ⟨.uint32, .uint32, .uint32⟩

/-- `a`. -/
def nameA : Str := [0x61]

/-- A message `a` with the number 42. -/
def plainSample : Complex decimalNumbers :=
  .mk (fun | .uint => [(nameA, 42)] | .string => [(nameProperty, nameA)] | _ => []) (fun _ => []) [] []

/-- An object with a number, an empty text and an array that holds another one. -/
def innerSample : Complex decimalNumbers :=
  .mk (fun | .uint => [(nameA, 42)] | .string => [(nameA, [])] | _ => [])
    (fun | .string => [(nameA, [[0x78], [], [0x79]])] | _ => []) [] []

/-- A message `a` that holds the object as a property and twice in an array. -/
def outerSample : Complex decimalNumbers :=
  .mk (fun | .int => [(nameA, 7)] | .string => [(nameProperty, nameA)] | _ => [])
    (fun | .double => [(nameA, [1, 2])] | _ => []) [(nameA, innerSample)] [(nameA, [innerSample, innerSample])]

theorem plainSample_wellFormed : plainSample.WellFormed := by
  refine .mk (fun k => ?_) (fun _ => .nil) .nil .nil (fun p hp => absurd hp List.not_mem_nil)
    (fun p hp => absurd hp List.not_mem_nil)
  cases k <;> first | exact List.Pairwise.nil | exact List.pairwise_singleton _ _

theorem plainSample_plain : plainSample.Plain := by
  refine .mk (fun k p hp => ?_) (fun p hp => ?_) (fun _ _ hp => absurd hp List.not_mem_nil)
    (fun _ hp => absurd hp List.not_mem_nil) (fun _ hp => absurd hp List.not_mem_nil)
    (fun _ hp => absurd hp List.not_mem_nil) (fun _ hp => absurd hp List.not_mem_nil)
    (fun _ hp => absurd hp List.not_mem_nil)
  · revert p
    cases k <;> decide
  · revert p
    decide

theorem innerSample_plain : innerSample.Plain := by
  refine .mk (fun k => ?_) (by decide) (fun k => ?_) (by decide) (fun _ hp => absurd hp List.not_mem_nil)
    (fun _ hp => absurd hp List.not_mem_nil) (fun _ hp => absurd hp List.not_mem_nil)
    (fun _ hp => absurd hp List.not_mem_nil)
  all_goals cases k <;> decide

theorem outerSample_plain : outerSample.Plain := by
  have hname : PlainText nameA := by decide
  refine .mk (fun k => ?_) (by decide) (fun k => ?_) (by decide) (fun p hp => ?_) (fun p hp => ?_) (fun p hp => ?_)
    (fun p hp c hc => ?_)
  · cases k <;> decide
  · cases k <;> decide
  · exact List.mem_singleton.mp hp ▸ hname
  · exact List.mem_singleton.mp hp ▸ hname
  · exact List.mem_singleton.mp hp ▸ innerSample_plain
  · cases List.mem_singleton.mp hp
    simp only [List.mem_cons, List.not_mem_nil, or_false, or_self] at hc
    exact hc ▸ innerSample_plain

theorem innerSample_wellFormed : innerSample.WellFormed := by
  refine .mk (fun k => ?_) (fun k => ?_) .nil .nil (fun p hp => absurd hp List.not_mem_nil)
    (fun p hp => absurd hp List.not_mem_nil)
  all_goals cases k <;> first | exact List.Pairwise.nil | exact List.pairwise_singleton _ _

theorem outerSample_wellFormed : outerSample.WellFormed := by
  refine .mk (fun k => ?_) (fun k => ?_) (List.pairwise_singleton _ _) (List.pairwise_singleton _ _) ?_ ?_
  · cases k <;> first | exact List.Pairwise.nil | exact List.pairwise_singleton _ _
  · cases k <;> first | exact List.Pairwise.nil | exact List.pairwise_singleton _ _
  · exact fun p hp => List.mem_singleton.mp hp ▸ innerSample_wellFormed
  · intro p hp c hc
    cases List.mem_singleton.mp hp
    simp only [List.mem_cons, List.not_mem_nil, or_false, or_self] at hc
    exact hc ▸ innerSample_wellFormed

/-! ## The whole document -/

/-- The run over the document of an object, in whatever pieces its texts come, those of items apart. -/
theorem unserialize_whole {c : Complex V} {name : Str} (h : c.WellFormed) (hplain : c.Plain)
    (hname : PlainText name)
    (hl : ItemsWhole (.element (domString messageTag) [addattr nameAttr name] (c.serialize L)) l) :
    unserialize L l = .ok (c.restored name) := by
  let s : Handler V :=
    ⟨[messageTag], false, [none], [⟨name, complexTypeName, false, [], []⟩], Complex.empty.setName name⟩
  have hs : Receptive s := ⟨rfl, ⟨_, _, rfl⟩, ⟨_, _, rfl, rfl⟩⟩
  have hstart : step L init (.startElement (domString messageTag) [addattr nameAttr name]) = .ok s := by
    rw [step_startElement]
    unfold startElement
    rw [xmlToStdString_messageTag]
    change onMessageStart L (getAttribs [addattr nameAttr name]) _ = _
    unfold onMessageStart setPredefinedName
    rw [getAttr_addattr hname]
    rfl
  have hend : step L (s.onTop (merge c)) (.endElement (domString messageTag))
      = .ok ⟨[], false, [none], s.descriptors, c.restored name⟩ := by
    rw [← merge_named h]
    rfl
  unfold unserialize
  rw [parse_pieces hl.pieces]
  unfold Xml.events
  rw [parse_cons_of_ok L hstart, parse_append_of_ok L (reads_serialize h hplain s hs), parse_cons_of_ok L hend]
  rfl

/-- **Writing and reading.** A plain object is written, the text is parsed without an error, and what is read is the
    object as it arrives, in whatever pieces the parser reports the texts of properties, as long as it reports the text
    of every item in one. -/
theorem unserialize_document {X : Xerces} (hX : X.Documented) {c : Complex V} {name : Str} (h : c.WellFormed)
    (hplain : c.Plain) (hname : c.getName = .ok name) :
    ∃ doc, c.document L = .ok doc ∧ X.Gives doc (fun l => unserialize L l = .ok (c.restored name)) := by
  obtain ⟨doc, hdoc, hdocPlain, rfl⟩ := hplain.document (L := L) hname
  exact ⟨_, hdoc, hX.gives hdocPlain (fun l hl => unserialize_whole h hplain (hplain.getName hname) hl)⟩

/-- A report of the sample in which the text of the number comes in two pieces. -/
def plainReport : List Sax :=
  [.startElement (domString messageTag) [addattr nameAttr nameA],
    .startElement (domString Simple.uint.typeName) [addattr nameAttr nameA], .characters [0x34], .characters [0x32],
    .endElement (domString Simple.uint.typeName), .endElement (domString messageTag)]

theorem plainReport_reported {cut : XmlStr → Prop} (hcut : cut (domString Simple.uint.typeName)) {doc : Xml}
    (hdoc : plainSample.document decimal = .ok doc) : Reported cut [doc] plainReport := by
  have htext : domString (decimal.print .uint (42 : BitVec 32)) = [0x34, 0x32] := by decide +kernel
  have hplain : plainSample.document decimal = .ok (.element (domString messageTag) [addattr nameAttr nameA]
      [.element (domString Simple.uint.typeName) [addattr nameAttr nameA]
        [.text (domString (decimal.print .uint (42 : BitVec 32)))]]) := rfl
  rw [hplain, htext] at hdoc
  cases hdoc
  exact .node (.leaf [[0x34], [0x32]] rfl (by decide) (.inl hcut) .nil) .nil

/-- The number is read from its two pieces. -/
theorem unserialize_document_cut : unserialize decimal plainReport = .ok (plainSample.restored nameA) := by
  obtain ⟨doc, hdoc, hgives⟩ :=
    unserialize_document (L := decimal) Xerces.any_documented plainSample_wellFormed plainSample_plain rfl
  have hnumber : xmlToStdString (domString Simple.uint.typeName) ≠ arrayItemTag := by
    rw [xmlToStdString_typeName]
    decide
  exact hgives.of_reports ⟨_, rfl, plainReport_reported trivial hdoc⟩ (plainReport_reported hnumber hdoc)

/-! ## From host to host -/

variable (L) in
/-- One trip: an object is written, and a report of the document with whole items is read. -/
def Sent (X : Xerces) (c c' : Complex V) : Prop :=
  ∃ doc l, c.document L = .ok doc ∧ X.reports doc (.ok l) ∧ ItemsWhole doc l ∧ unserialize L l = .ok c'

/-- A trip always has the same result. -/
theorem Sent.eq_restored {X : Xerces} (hX : X.Documented) {c c' : Complex V} {name : Str} (h : c.WellFormed)
    (hplain : c.Plain) (hname : c.getName = .ok name) (hsent : Sent L X c c') : c' = c.restored name := by
  obtain ⟨doc, l, hdoc, hl, hwhole, hread⟩ := hsent
  obtain ⟨doc', hdoc', hgives⟩ := unserialize_document (L := L) hX h hplain hname
  cases hdoc.symm.trans hdoc'
  rw [hgives.of_reports hl hwhole] at hread
  exact (Except.ok.inj hread).symm

/-- **However many hosts pass a plain object on, it changes at most on the first trip**: every trip succeeds, and what
    arrives is always the same, the object itself if and only if it is canonical. On every trip the parser must report
    the text of each item in one piece. -/
theorem relayed_iff {X : Xerces} (hX : X.Documented) {c : Complex V} {name : Str} (h : c.WellFormed)
    (hplain : c.Plain) (hname : c.getName = .ok name) :
    (∀ d, Relation.ReflTransGen (Sent L X) c d →
        ∃ doc, d.document L = .ok doc ∧ X.Gives doc (fun l => unserialize L l = .ok (c.restored name)))
      ∧ ∀ c', Relation.TransGen (Sent L X) c c' → c' = c.restored name ∧ (c' = c ↔ c.Canonical name) := by
  -- what arrives is canonical, so it arrives as it is on every later trip
  have hagain : (c.restored name).restored name = c.restored name :=
    (Complex.restored_eq_iff (h.restored name) name).mpr (Complex.canonical_restored name c)
  have hplain' : (c.restored name).Plain := hplain.restored (hplain.getName hname)
  -- along any number of trips there are only these two objects
  have htrips : ∀ d, Relation.ReflTransGen (Sent L X) c d → d = c ∨ d = c.restored name := by
    intro d hd
    induction hd with
    | refl => exact .inl rfl
    | tail _ hone ih =>
        right
        rcases ih with rfl | rfl
        · exact hone.eq_restored hX h hplain hname
        · exact (hone.eq_restored hX (h.restored name) hplain' (Complex.getName_restored name c)).trans hagain
  have hafter : ∀ d, Relation.ReflTransGen (Sent L X) c d →
      ∃ doc, d.document L = .ok doc ∧ X.Gives doc (fun l => unserialize L l = .ok (c.restored name)) := by
    intro d hd
    rcases htrips d hd with rfl | rfl
    · exact unserialize_document hX h hplain hname
    · have hdoc := unserialize_document (L := L) hX (h.restored name) hplain' (Complex.getName_restored name c)
      rwa [hagain] at hdoc
  refine ⟨hafter, fun c' hsent => ?_⟩
  have harrived : c' = c.restored name := by
    obtain ⟨d, hd, hone⟩ := Relation.TransGen.tail'_iff.mp hsent
    rcases htrips d hd with rfl | rfl
    · exact hone.eq_restored hX h hplain hname
    · exact (hone.eq_restored hX (h.restored name) hplain' (Complex.getName_restored name c)).trans hagain
  exact ⟨harrived, by rw [harrived, Complex.restored_eq_iff h]⟩

/-- The object in the message `a` has no name of its own, so it gets one on the first trip. -/
theorem relayed_iff_outerSample :
    Sent decimal Xerces.any outerSample (outerSample.restored nameA)
      ∧ ¬ Relation.TransGen (Sent decimal Xerces.any) outerSample outerSample := by
  have hname : outerSample.getName = .ok nameA := rfl
  obtain ⟨hsucceeds, harrives⟩ :=
    relayed_iff (L := decimal) Xerces.any_documented outerSample_wellFormed outerSample_plain hname
  constructor
  · obtain ⟨doc, hdoc, hgives⟩ := hsucceeds outerSample .refl
    obtain ⟨doc', hdoc', hplain, -⟩ := outerSample_plain.document (L := decimal) hname
    cases hdoc.symm.trans hdoc'
    have hwhole : ItemsWhole doc (doc.events ++ []) := reported_events _ hplain .nil
    have hreport : Xerces.any.reports doc (.ok (doc.events ++ [])) := ⟨_, rfl, reported_events _ hplain .nil⟩
    exact ⟨doc, _, hdoc, hreport, hwhole, hgives.of_reports hreport hwhole⟩
  · intro hsent
    cases (harrives outerSample hsent).2.mp rfl with
    | mk _ _ _ hobjects _ =>
        cases hobjects _ List.mem_cons_self with
        | mk hnamed _ _ _ _ => exact absurd hnamed (by decide)

end Handler

end Smart

end Unicomm
