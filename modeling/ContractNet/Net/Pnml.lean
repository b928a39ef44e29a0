import ContractNet.Net.Basic
import ContractNet.Xml.Reader

/-!
# Nets as PNML documents

PNML is the XML form of nets: a `net` with one `page`, in which places, transitions and arcs stand
in this order, each with its id as an attribute and its texts in elements of their own.

* `Net.toPnml?` writes a document;
* `Net.readPnml` reads one.  Elements that are not known are passed over, and an element that is
  repeated adds to what the earlier one said.
-/

namespace ContractNet

open Xml

/-! ### Writing -/

/-- The element `name` around a text. -/
def textElement (name t : Text) : Node := .element name [] [.element "text" [] [.text t]]

/-- The element of a name; none for an empty one. -/
def nameElement (t : Text) : List Node := if t.isEmpty then [] else [textElement "name" t]

/-- A place as an element. -/
def Place.toNode (p : Place) : Node :=
  .element "place" [("id", p.id)]
    (nameElement p.name ++ (p.marking.map (textElement "initialMarking")).toList)

/-- A transition as an element. -/
def Transition.toNode (t : Transition) : Node :=
  .element "transition" [("id", t.id)]
    (nameElement t.name ++ (t.guard.map (textElement "guard")).toList)

/-- An arc as an element. -/
def Arc.toNode (a : Arc) : Node :=
  .element "arc" [("id", a.id), ("source", a.source), ("target", a.target)]
    [textElement "inscription" a.inscription]

/-- A page as an element. -/
def Page.toNode (p : Page) : Node :=
  .element "page" [("id", p.id)]
    (p.places.map Place.toNode ++ p.transitions.map Transition.toNode ++ p.arcs.map Arc.toNode)

/-- The type of a net, or the core model if it is empty. -/
def Net.effectiveType (n : Net) : Text := if n.type.isEmpty then coreModelType else n.type

/-- The root element of the document of a net. -/
def Net.toNode? (n : Net) : Option Node :=
  n.page.map fun p =>
    .element "pnml" [] [.element "net" [("id", n.id), ("type", n.effectiveType)] [p.toNode]]

/-- The body of a document, without declaration and final newline. -/
def Net.pnmlBody? (n : Net) : Option Text := n.toNode?.map (Node.renderAt 0)

/-- The document of a net; absent for a net without page. -/
def Net.toPnml? (n : Net) : Option Text := n.pnmlBody?.map fun body => Xml.header ++ body ++ "\n"

/-- The parts in which a document is written out. -/
inductive DocumentPart where
  | header
  | body
  | ending
deriving DecidableEq

/-- The first part that does not fit when only `room` bytes can be written. -/
def overflowing? (room : Nat) (body : Text) : Option DocumentPart :=
  if room < Xml.header.length then some .header
  else if room < Xml.header.length + body.length then some .body
  else if room < Xml.header.length + body.length + 1 then some .ending
  else none

/-- What an error about writing a part starts with. -/
def DocumentPart.errorPrefix : DocumentPart → Text
  | header => "write PNML header: "
  | body => "encode PNML: "
  | ending => "write PNML: "

/-! ### Reading -/

/-- The value of the last attribute with the given name, or else an old value. -/
def attributeOr (old : Text) (attributes : List (Text × Text)) (name : Text) : Text :=
  ((attributes.reverse.find? (·.1 = name)).map Prod.snd).getD old

/-- The texts of an element one after the other, without those in elements in it. -/
def ownText (ns : List Node) : Text :=
  ns.flatMap fun n => match n with
    | .text t => t
    | .element .. => []

/-- The last `text` in an element, or else an old one. -/
def innerText (old : Text) (ns : List Node) : Text :=
  ns.foldl (fun old n => match n with
    | .element name _ content => if name = "text" then ownText content else old
    | .text _ => old) old

/-- What an element adds to a place. -/
def placeChild (p : Place) : Node → Place
  | .element name _ content =>
    if name = "name" then { p with name := innerText p.name content }
    else if name = "initialMarking" then
      { p with marking := some (innerText (p.marking.getD []) content) }
    else p
  | .text _ => p

/-- The place of an element. -/
def Place.ofElement (attributes : List (Text × Text)) (content : List Node) : Place :=
  content.foldl placeChild ⟨attributeOr [] attributes "id", [], none⟩

/-- What an element adds to a transition. -/
def transitionChild (t : Transition) : Node → Transition
  | .element name _ content =>
    if name = "name" then { t with name := innerText t.name content }
    else if name = "guard" then { t with guard := some (innerText (t.guard.getD []) content) }
    else t
  | .text _ => t

/-- The transition of an element. -/
def Transition.ofElement (attributes : List (Text × Text)) (content : List Node) : Transition :=
  content.foldl transitionChild ⟨attributeOr [] attributes "id", [], none⟩

/-- What an element adds to an arc. -/
def arcChild (a : Arc) : Node → Arc
  | .element name _ content =>
    if name = "inscription" then { a with inscription := innerText a.inscription content } else a
  | .text _ => a

/-- The arc of an element. -/
def Arc.ofElement (attributes : List (Text × Text)) (content : List Node) : Arc :=
  content.foldl arcChild ⟨attributeOr [] attributes "id", attributeOr [] attributes "source",
    attributeOr [] attributes "target", []⟩

/-- What an element adds to a page. -/
def pageChild (p : Page) : Node → Page
  | .element name attributes content =>
    if name = "place" then { p with places := p.places ++ [Place.ofElement attributes content] }
    else if name = "transition" then
      { p with transitions := p.transitions ++ [Transition.ofElement attributes content] }
    else if name = "arc" then { p with arcs := p.arcs ++ [Arc.ofElement attributes content] }
    else p
  | .text _ => p

/-- What an element adds to a net, given its page so far. -/
def netChild (p : Page) : Node → Page
  | .element name attributes content =>
    if name = "page" then
      content.foldl pageChild { p with id := attributeOr p.id attributes "id" }
    else p
  | .text _ => p

/-- A net as it is read, with the page that every net has. -/
structure PnmlNet where
  id : Text := []
  type : Text := []
  page : Page := { id := [] }

/-- What an element adds to a document. -/
def documentChild (n : PnmlNet) : Node → PnmlNet
  | .element name attributes content =>
    if name = "net" then
      { id := attributeOr n.id attributes "id"
        type := attributeOr n.type attributes "type"
        page := content.foldl netChild n.page }
    else n
  | .text _ => n

/-- Why a text is no document of a net. -/
inductive PnmlError where
  | xml (document : Text) (e : ReadError)
  /-- The root element has another name. -/
  | root (name : Text)

/-- Wording of the error. -/
def PnmlError.message : PnmlError → Text
  | xml document e => "invalid PNML: " ++ e.message document
  | root name => "invalid PNML: expected element type <pnml> but have <" ++ name ++ ">"

/-- Read the document of a net. -/
def Net.readPnml (t : Text) : Except PnmlError Net := do
  let (tag, rest) ← (startTag (t.length + 1) t).mapError (.xml t)
  if tag.name.loc ≠ "pnml" then .error (.root tag.name.loc)
  else
    let content ← (contentOf tag rest).mapError (.xml t)
    let n := content.foldl documentChild {}
    pure { id := n.id, type := n.type, page := some n.page }

end ContractNet
