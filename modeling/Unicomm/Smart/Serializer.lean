import Unicomm.Smart.Xml

/-!
# `Smart.Serializer` — writing a `complex` as a document

Models the `serialize` family of `complex_serializer.cpp`: a `complex` becomes the tree that is handed to the XML
writer. Properties come type by type, each map in its own order: the simple ones, the complex ones, then the arrays.

Names and texts go into the tree as C strings, so one that holds a zero is cut there. The tree of a `Plain` object,
whose names and texts are plain, is one that the writer and the parser carry as it is (`document_plain`).
-/

namespace Unicomm

namespace Smart

/-- `message_tag`: `message`. -/
def messageTag : Str := [0x6d, 0x65, 0x73, 0x73, 0x61, 0x67, 0x65]

/-- `array_tag`: `items`. -/
def arrayTag : Str := [0x69, 0x74, 0x65, 0x6d, 0x73]

/-- `array_item_tag`: `item`. -/
def arrayItemTag : Str := [0x69, 0x74, 0x65, 0x6d]

/-- `name_attr`: `name`. -/
def nameAttr : Str := [0x6e, 0x61, 0x6d, 0x65]

/-! ## `serialize` -/

/-- `addattr`. -/
def addattr (name value : Str) : XmlStr × XmlStr := (domString name, domString value)

/-- `addpropattr`: a property without a name has no attribute. -/
def addpropattr (name : Str) : Attributes := if name = [] then [] else [addattr nameAttr name]

section

variable {V : Numbers} (L : Lexical V)

/-- `serialize` of a property of a simple type. The name of the object itself is not among its properties. -/
def serializeProperty (k : Simple) (p : Str × V.Val k) : List Xml :=
  if p.1 ≠ nameProperty then
    [.element (domString k.typeName) (addpropattr p.1) [.text (domString (L.print k p.2))]]
  else []

/-- `serialize` of all properties of a simple type. -/
def serializeProperties (k : Simple) (ps : List (Str × V.Val k)) : List Xml := ps.flatMap (serializeProperty L k)

/-- `serialize` of the items of an array. -/
def serializeItems (k : Simple) (vs : List (V.Val k)) : List Xml :=
  vs.map (fun v => .element (domString arrayItemTag) [] [.text (domString (L.print k v))])

/-- `serialize` of an array property. -/
def serializeArray (k : Simple) (p : Str × List (V.Val k)) : List Xml :=
  [.element (domString k.typeName) (addpropattr p.1) [.element (domString arrayTag) [] (serializeItems L k p.2)]]

/-- `serialize` of all arrays of a simple type. -/
def serializeArrays (k : Simple) (ps : List (Str × List (V.Val k))) : List Xml := ps.flatMap (serializeArray L k)

namespace Complex

mutual

/-- **`serialize`.** -/
def serialize : Complex V → List Xml
  | .mk simple arrays complexes complexArrays =>
      serializeProperties L .int (simple .int) ++ serializeProperties L .uint (simple .uint) ++
        serializeProperties L .double (simple .double) ++ serializeProperties L .string (simple .string) ++
        serializeComplexes complexes ++
        serializeArrays L .int (arrays .int) ++ serializeArrays L .uint (arrays .uint) ++
        serializeArrays L .double (arrays .double) ++ serializeArrays L .string (arrays .string) ++
        serializeComplexArrays complexArrays

/-- `serialize` of all complex properties. -/
def serializeComplexes : List (Str × Complex V) → List Xml
  | []           => []
  | (n, c) :: ps => .element (domString complexTypeName) (addpropattr n) c.serialize :: serializeComplexes ps

/-- `serialize` of the items of an array of complex objects: each is a property again, with the name it has. -/
def serializeComplexItems : List (Complex V) → List Xml
  | []      => []
  | c :: cs =>
      .element (domString arrayItemTag) []
          [.element (domString complexTypeName) (addpropattr c.getSafeName) c.serialize] ::
        serializeComplexItems cs

/-- `serialize` of all arrays of complex objects. -/
def serializeComplexArrays : List (Str × List (Complex V)) → List Xml
  | []            => []
  | (n, cs) :: ps =>
      .element (domString complexTypeName) (addpropattr n)
          [.element (domString arrayTag) [] (serializeComplexItems cs)] ::
        serializeComplexArrays ps

end

/-- `serialize` of a whole message: the root carries the name, and an object without one is refused. -/
def document (c : Complex V) : Except DataExc Xml :=
  match c.getName with
  | .ok name => .ok (.element (domString messageTag) [addattr nameAttr name] (c.serialize L))
  | .error e => .error e

/-! ## Plain objects -/

variable {L}

theorem serializeComplexes_eq_flatMap (ps : List (Str × Complex V)) :
    serializeComplexes L ps
      = ps.flatMap (fun p => [.element (domString complexTypeName) (addpropattr p.1) (p.2.serialize L)]) := by
  induction ps with
  | nil => rfl
  | cons p ps ih =>
      rw [List.flatMap_cons, ← ih]
      rfl

theorem serializeComplexItems_eq_map (cs : List (Complex V)) :
    serializeComplexItems L cs = cs.map (fun c => .element (domString arrayItemTag) []
      [.element (domString complexTypeName) (addpropattr c.getSafeName) (c.serialize L)]) := by
  induction cs with
  | nil => rfl
  | cons c cs ih =>
      rw [List.map_cons, ← ih]
      rfl

theorem serializeComplexArrays_eq_flatMap (ps : List (Str × List (Complex V))) :
    serializeComplexArrays L ps
      = ps.flatMap (fun p => [.element (domString complexTypeName) (addpropattr p.1)
          [.element (domString arrayTag) [] (serializeComplexItems L p.2)]]) := by
  induction ps with
  | nil => rfl
  | cons p ps ih =>
      rw [List.flatMap_cons, ← ih]
      rfl

/-- **An object with plain names and texts**, and only such objects in it. -/
inductive Plain : Complex V → Prop where
  | mk {simple arrays complexes complexArrays}
      (names : ∀ k, ∀ p ∈ simple k, PlainText p.1)
      (texts : ∀ p ∈ simple .string, PlainText (p.2 : Str))
      (arrays_names : ∀ k, ∀ p ∈ arrays k, PlainText p.1)
      (arrays_texts : ∀ p ∈ arrays .string, ∀ s : Str, s ∈ (p.2 : List Str) → PlainText s)
      (complexes_names : ∀ p ∈ complexes, PlainText p.1)
      (complexArrays_names : ∀ p ∈ complexArrays, PlainText p.1)
      (complexes_plain : ∀ p ∈ complexes, Plain p.2)
      (complexArrays_plain : ∀ p ∈ complexArrays, ∀ c ∈ p.2, Plain c) :
      Plain (.mk simple arrays complexes complexArrays)

/-- The name of a plain object is plain. -/
theorem Plain.getSafeName {c : Complex V} (h : c.Plain) : PlainText c.getSafeName := by
  cases h with
  | @mk simple _ _ _ _ htexts _ _ _ _ _ _ =>
      change PlainText ((SortedMap.get? nameProperty (simple .string)).getD [])
      cases hget : SortedMap.get? nameProperty (simple .string) with
      | none => exact fun b hb => absurd hb List.not_mem_nil
      | some name => exact htexts _ (SortedMap.mem_of_get? hget)

/-- What is written of a plain value is a plain text. -/
theorem print_plain {k : Simple} {v : V.Val k} (h : k = .string → PlainText (L.print k v)) :
    PlainText (L.print k v) := by
  by_cases hk : k = .string
  · exact h hk
  · exact L.print_plain hk v

end Complex

variable {L}

/-- A plain name as an attribute. -/
theorem plainAttributes_addattr {name : Str} (h : PlainText name) : Xml.PlainAttributes [addattr nameAttr name] := by
  refine ⟨List.nodup_singleton _, fun a ha => ?_⟩
  cases List.mem_singleton.mp ha
  have hname : Xml.IsName (domString nameAttr) := Xml.isName_domString (by decide) (by decide)
  exact ⟨hname, domString_plain h⟩

/-- The attributes of a property with a plain name. -/
theorem plainAttributes_addpropattr {name : Str} (h : PlainText name) : Xml.PlainAttributes (addpropattr name) := by
  unfold addpropattr
  split
  · exact ⟨List.nodup_nil, fun a ha => absurd ha List.not_mem_nil⟩
  · exact plainAttributes_addattr h

namespace Xml

/-- The tags that are written are names. -/
theorem isName_typeName (k : Simple) : IsName (domString k.typeName) := by
  cases k <;> exact isName_domString (by decide) (by decide)

theorem isName_complexTypeName : IsName (domString complexTypeName) :=
  isName_domString (by decide) (by decide)

theorem isName_arrayTag : IsName (domString arrayTag) :=
  isName_domString (by decide) (by decide)

theorem isName_arrayItemTag : IsName (domString arrayItemTag) :=
  isName_domString (by decide) (by decide)

/-- Elements without attributes. -/
theorem plainAttributes_nil : PlainAttributes [] := ⟨List.nodup_nil, fun _ ha => absurd ha List.not_mem_nil⟩

end Xml

/-- The properties of a simple type. -/
theorem serializeProperties_plain {k : Simple} {ps : List (Str × V.Val k)} (hnames : ∀ p ∈ ps, PlainText p.1)
    (htexts : ∀ p ∈ ps, PlainText (L.print k p.2)) : ∀ x ∈ serializeProperties L k ps, x.Plain := by
  intro x hx
  obtain ⟨p, hp, hx⟩ := List.mem_flatMap.mp hx
  unfold serializeProperty at hx
  split at hx
  · cases List.mem_singleton.mp hx
    exact .leaf (Xml.isName_typeName k) (plainAttributes_addpropattr (hnames p hp)) (domString_plain (htexts p hp))
  · cases hx

/-- The arrays of a simple type. -/
theorem serializeArrays_plain {k : Simple} {ps : List (Str × List (V.Val k))} (hnames : ∀ p ∈ ps, PlainText p.1)
    (htexts : ∀ p ∈ ps, ∀ v ∈ p.2, PlainText (L.print k v)) : ∀ x ∈ serializeArrays L k ps, x.Plain := by
  intro x hx
  obtain ⟨p, hp, hx⟩ := List.mem_flatMap.mp hx
  cases List.mem_singleton.mp hx
  refine .node (Xml.isName_typeName k) (plainAttributes_addpropattr (hnames p hp)) (fun y hy => ?_)
  cases List.mem_singleton.mp hy
  refine .node Xml.isName_arrayTag Xml.plainAttributes_nil (fun z hz => ?_)
  obtain ⟨v, hv, rfl⟩ := List.mem_map.mp hz
  exact .leaf Xml.isName_arrayItemTag Xml.plainAttributes_nil (domString_plain (htexts p hp v hv))

namespace Complex

/-- **What is written of a plain object** is carried as it is. -/
theorem Plain.serialize {c : Complex V} (h : c.Plain) : ∀ x ∈ c.serialize L, x.Plain := by
  induction h with
  | @mk simple arrays complexes complexArrays hnames htexts hanames hatexts hcnames hcanames _ hitems ihc ihca =>
      have hproperties : ∀ k, ∀ x ∈ serializeProperties L k (simple k), x.Plain := by
        refine fun k => serializeProperties_plain (hnames k) (fun p hp => print_plain ?_)
        rintro rfl
        exact htexts p hp
      have harrays : ∀ k, ∀ x ∈ serializeArrays L k (arrays k), x.Plain := by
        refine fun k => serializeArrays_plain (hanames k) (fun p hp v hv => print_plain ?_)
        rintro rfl
        exact hatexts p hp v hv
      have hcomplexes : ∀ x ∈ serializeComplexes L complexes, x.Plain := by
        intro x hx
        rw [serializeComplexes_eq_flatMap] at hx
        obtain ⟨p, hp, hx⟩ := List.mem_flatMap.mp hx
        cases List.mem_singleton.mp hx
        exact .node Xml.isName_complexTypeName (plainAttributes_addpropattr (hcnames p hp)) (ihc p hp)
      have hcomplexArrays : ∀ x ∈ serializeComplexArrays L complexArrays, x.Plain := by
        intro x hx
        rw [serializeComplexArrays_eq_flatMap] at hx
        obtain ⟨p, hp, hx⟩ := List.mem_flatMap.mp hx
        cases List.mem_singleton.mp hx
        refine .node Xml.isName_complexTypeName (plainAttributes_addpropattr (hcanames p hp)) (fun y hy => ?_)
        cases List.mem_singleton.mp hy
        refine .node Xml.isName_arrayTag Xml.plainAttributes_nil (fun z hz => ?_)
        rw [serializeComplexItems_eq_map] at hz
        obtain ⟨c, hc, rfl⟩ := List.mem_map.mp hz
        refine .node Xml.isName_arrayItemTag Xml.plainAttributes_nil (fun y hy => ?_)
        cases List.mem_singleton.mp hy
        exact .node Xml.isName_complexTypeName (plainAttributes_addpropattr (hitems p hp c hc).getSafeName)
          (ihca p hp c hc)
      intro x hx
      unfold Complex.serialize at hx
      simp only [List.mem_append] at hx
      rcases hx with ((((((((hx | hx) | hx) | hx) | hx) | hx) | hx) | hx) | hx) | hx
      · exact hproperties .int x hx
      · exact hproperties .uint x hx
      · exact hproperties .double x hx
      · exact hproperties .string x hx
      · exact hcomplexes x hx
      · exact harrays .int x hx
      · exact harrays .uint x hx
      · exact harrays .double x hx
      · exact harrays .string x hx
      · exact hcomplexArrays x hx

theorem Plain.getName {c : Complex V} (h : c.Plain) {name : Str} (hname : c.getName = .ok name) : PlainText name := by
  have hsafe : c.getSafeName = name := by
    unfold Complex.getName getSimple at hname
    unfold Complex.getSafeName
    split at hname
    · next hget =>
        rw [hget]
        exact Except.ok.inj hname
    · cases hname
  exact hsafe ▸ h.getSafeName

/-- **The document of a plain object** is carried as it is. -/
theorem Plain.document {c : Complex V} (h : c.Plain) {name : Str} (hname : c.getName = .ok name) :
    ∃ doc : Xml, c.document L = .ok doc ∧ doc.Plain
      ∧ doc = .element (domString messageTag) [addattr nameAttr name] (c.serialize L) := by
  have htag : Xml.IsName (domString messageTag) := Xml.isName_domString (by decide) (by decide)
  unfold Complex.document
  rw [hname]
  exact ⟨_, rfl, .node htag (plainAttributes_addattr (h.getName hname)) h.serialize, rfl⟩

end Complex

end

end Smart

end Unicomm
