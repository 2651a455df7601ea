import Unicomm.Smart.Serializer

/-!
# `Smart.ContentHandler` — reading a `complex` from the parser's callbacks

Models `message_content_handler_base` and `message_default_content_handler`: the parser reports tags and texts, the
handler keeps a stack of open elements, a stack of descriptors (what is being read) and a stack of objects (where it
goes), and fills the message.

`_complexes` is a stack of pointers. Each points to the message itself (`none` here) or to an object that was made for
an element and is reached through that entry only, so the entry carries it (`some`).
-/

namespace Unicomm

namespace Smart

/-- `property_descriptor_type`. -/
structure Descriptor where
  name    : Str
  type    : Str
  isArray : Bool
  value   : Str
  values  : List Str
  deriving DecidableEq, Repr

/-- `is_complex`. -/
def Descriptor.isComplex (d : Descriptor) : Bool := d.type = complexTypeName

/-- `is_int`, `is_uint`, `is_double` and `is_string`, in the order in which they are asked. -/
def Descriptor.simple? (d : Descriptor) : Option Simple :=
  if d.type = Simple.int.typeName then some .int
  else if d.type = Simple.uint.typeName then some .uint
  else if d.type = Simple.double.typeName then some .double
  else if d.type = Simple.string.typeName then some .string
  else none

/-- **The handler.** `elements` and `chunks` are of the base class. -/
structure Handler (V : Numbers) where
  elements    : List Str
  chunks      : Bool
  complexes   : List (Option (Complex V))
  descriptors : List Descriptor
  complex     : Complex V

/-- `tag_attributes_collection_type`. -/
abbrev TagAttributes := List (Str × XmlStr)

/-- `get_attribs`. -/
def getAttribs (attrs : Attributes) : TagAttributes := attrs.map (Prod.map xmlToStdString id)

/-- `get_attr`; every attribute is optional. -/
def getAttr (attrs : TagAttributes) (name : Str) : Str := xmlToStdString ((attrs.lookup name).getD [])

/-- `is_property_tag`. -/
def isPropertyTag (tag : Str) : Bool :=
  tag = Simple.string.typeName || tag = Simple.int.typeName || tag = Simple.uint.typeName ||
    tag = Simple.double.typeName || tag = complexTypeName

/-- `runtime_error("Top element is not an array")`. -/
def notAnArray : DataExc := .runtimeError "Top element is not an array"

namespace Handler

variable {V : Numbers}

/-- A handler as it is built. -/
def init : Handler V := ⟨[], false, [], [], .empty⟩

/-- `top_complex`. -/
def topComplex (s : Handler V) : Except DataExc (Complex V) :=
  match s.complexes with
  | []          => .error .undefinedBehavior
  | none :: _   => .ok s.complex
  | some c :: _ => .ok c

/-- Write through the top of `_complexes`. -/
def setTopComplex (c : Complex V) (s : Handler V) : Handler V :=
  match s.complexes with
  | []           => s
  | none :: _    => { s with complex := c }
  | some _ :: cs => { s with complexes := some c :: cs }

/-- `top_descriptor`. -/
def topDescriptor (s : Handler V) : Except DataExc Descriptor :=
  match s.descriptors with
  | []     => .error .undefinedBehavior
  | d :: _ => .ok d

/-- Write to the top of `_descriptors`. -/
def setTopDescriptor (d : Descriptor) (s : Handler V) : Handler V := { s with descriptors := d :: s.descriptors.tail }

/-- `_complexes.pop()`. -/
def popComplex (s : Handler V) : Handler V := { s with complexes := s.complexes.tail }

/-- `_descriptors.pop()`. -/
def popDescriptor (s : Handler V) : Handler V := { s with descriptors := s.descriptors.tail }

/-! ## `set_property` -/

variable (L : Lexical V)

/-- `set_property` of what a descriptor holds. -/
def setProperty (c : Complex V) (d : Descriptor) : Except DataExc (Complex V) :=
  match d.simple? with
  | none => .ok c
  | some k =>
      if d.isArray then do
        let vs ← d.values.mapM (L.parse k)
        .ok (c.setArray k d.name vs)
      else do
        let v ← L.parse k d.value
        .ok (c.setSimple k d.name v)

/-- The array of an object that is stored under the object's own name; there may be none yet. -/
def ownArray (c : Complex V) (name : Str) : List (Complex V) := (SortedMap.get? name c.complexArrays).getD []

/-- `set_property` of the stacks: the property on top has come to its end. -/
def setTopProperty (s : Handler V) : Except DataExc (Handler V) := do
  let d ← s.topDescriptor
  let c ← s.topComplex
  if d.isComplex then
    if d.isArray then
      let name ← c.getName
      let s := s.popComplex.popDescriptor
      let parent ← s.topComplex
      .ok (s.setTopComplex (parent.setComplexArray name (ownArray c name)))
    else
      let s := s.popDescriptor.popComplex
      let d ← s.topDescriptor
      let parent ← s.topComplex
      if d.isArray then
        -- the parent only stores the array, it is not part of the result
        let name ← parent.getName
        .ok (s.setTopComplex (parent.setComplexArray name (ownArray parent name ++ [c])))
      else
        let name ← c.getName
        .ok (s.setTopComplex (parent.setComplex name c))
  else
    let c ← setProperty L c d
    .ok (s.setTopComplex c).popDescriptor

/-! ## The callbacks of `message_default_content_handler` -/

/-- Set the predefined property `name` of the object on top. -/
def setPredefinedName (attrs : TagAttributes) (s : Handler V) : Except DataExc (Handler V) := do
  let c ← s.topComplex
  let c ← setProperty L c ⟨nameProperty, Simple.string.typeName, false, getAttr attrs nameAttr, []⟩
  .ok (s.setTopComplex c)

/-- `on_message_start`. -/
def onMessageStart (attrs : TagAttributes) (s : Handler V) : Except DataExc (Handler V) :=
  setPredefinedName L attrs
    { s with
      complexes   := none :: s.complexes
      descriptors := ⟨getAttr attrs nameAttr, complexTypeName, false, [], []⟩ :: s.descriptors }

/-- `on_property_start`. -/
def onPropertyStart (tag : Str) (attrs : TagAttributes) (s : Handler V) : Except DataExc (Handler V) :=
  let d : Descriptor := ⟨getAttr attrs nameAttr, tag, false, [], []⟩
  let s := { s with descriptors := d :: s.descriptors }
  if d.isComplex then setPredefinedName L attrs { s with complexes := some .empty :: s.complexes } else .ok s

/-- `on_array_start`. -/
def onArrayStart (s : Handler V) : Except DataExc (Handler V) := do
  let d ← s.topDescriptor
  .ok (s.setTopDescriptor { d with isArray := true })

/-- `on_array_item_start`, `on_array_end` and `on_array_item_end`. -/
def requireArray (s : Handler V) : Except DataExc (Handler V) := do
  let d ← s.topDescriptor
  if d.isArray then .ok s else .error notAnArray

/-- `on_property_characters`. -/
def onPropertyCharacters (chars : XmlStr) (continuation : Bool) (s : Handler V) : Except DataExc (Handler V) := do
  let d ← s.topDescriptor
  -- texts between the properties of an object do not count
  if d.isComplex then .ok s
  else
    let value := xmlToStdString chars
    .ok (s.setTopDescriptor { d with value := if continuation then d.value ++ value else value })

/-- `on_array_item_characters`: every call adds an item. -/
def onArrayItemCharacters (chars : XmlStr) (s : Handler V) : Except DataExc (Handler V) := do
  let d ← s.topDescriptor
  if d.isComplex then .ok s
  else .ok (s.setTopDescriptor { d with values := d.values ++ [xmlToStdString chars] })

/-! ## The callbacks of `message_content_handler_base` -/

/-- `startElement`. -/
def startElement (qname : XmlStr) (attrs : Attributes) (s : Handler V) : Except DataExc (Handler V) :=
  let tag := xmlToStdString qname
  let attrs := getAttribs attrs
  let s := { s with elements := tag :: s.elements, chunks := false }
  if tag = messageTag then onMessageStart L attrs s
  else if isPropertyTag tag then onPropertyStart L tag attrs s
  else if tag = arrayTag then onArrayStart s
  else if tag = arrayItemTag then requireArray s
  else .ok s

/-- Which callback a text is for; `on_message_characters` and `on_array_characters` do nothing. -/
def onCharacters (tag : Str) (chars : XmlStr) (s : Handler V) : Except DataExc (Handler V) :=
  if tag = messageTag then .ok s
  else if isPropertyTag tag then onPropertyCharacters chars s.chunks s
  else if tag = arrayTag then .ok s
  else if tag = arrayItemTag then onArrayItemCharacters chars s
  else .ok s

/-- `characters`. -/
def characters (chars : XmlStr) (s : Handler V) : Except DataExc (Handler V) :=
  match s.elements with
  | []       => .error .undefinedBehavior
  | tag :: _ => do
      let s ← onCharacters tag chars s
      .ok { s with chunks := true }

/-- Which callback an end tag is for; `on_message_end` does nothing. -/
def onEnd (tag : Str) (s : Handler V) : Except DataExc (Handler V) :=
  if tag = messageTag then .ok s
  else if isPropertyTag tag then setTopProperty L s
  else if tag = arrayTag then requireArray s
  else if tag = arrayItemTag then requireArray s
  else .ok s

/-- `endElement`; the tag is the one that is open. -/
def endElement (s : Handler V) : Except DataExc (Handler V) :=
  match s.elements with
  | []       => .error .undefinedBehavior
  | tag :: _ => do
      let s ← onEnd L tag { s with chunks := false }
      .ok { s with elements := s.elements.tail }

/-- One callback. -/
def step (s : Handler V) : Sax → Except DataExc (Handler V)
  | .startElement tag attrs => startElement L tag attrs s
  | .characters chars       => characters chars s
  | .endElement _           => endElement L s

/-- The parser's run. -/
def parse (l : List Sax) (s : Handler V) : Except DataExc (Handler V) := l.foldlM (step L) s

/-- **`unserialize`**: the message that a new handler holds after the run. -/
def unserialize (l : List Sax) : Except DataExc (Complex V) := do
  let s ← parse L l init
  .ok s.complex

end Handler

end Smart

end Unicomm
