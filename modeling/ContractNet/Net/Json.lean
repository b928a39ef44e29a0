import ContractNet.Net.Basic
import ContractNet.Json.Fields
import ContractNet.Text.Quoted

/-!
# Nets as JSON

`Net.toJson?` writes a net with its elements in lists, so that their order is kept; absent markings
and guards are left out, empty ones are not.  `Net.readJson` reads this form back.
-/

namespace ContractNet

/-- The address of the vocabulary of the form. -/
def jsonContext : Text := "https://pflow.xyz/schema"

/-- The kind of thing that the form describes. -/
def jsonKind : Text := "ColoredPetriNet"

/-! ### Writing -/

/-- A place as JSON. -/
def Place.toJson (p : Place) : Json :=
  .record [("id", some (.string p.id)), ("label", Json.unlessEmpty p.name),
    ("initial", p.marking.map .string)]

/-- A transition as JSON. -/
def Transition.toJson (t : Transition) : Json :=
  .record [("id", some (.string t.id)), ("label", Json.unlessEmpty t.name),
    ("guard", t.guard.map .string)]

/-- An arc as JSON. -/
def Arc.toJson (a : Arc) : Json :=
  .object [("id", .string a.id), ("source", .string a.source), ("target", .string a.target),
    ("inscription", .string a.inscription)]

/-- A net with the given page as JSON. -/
def Net.jsonWith (n : Net) (p : Page) : Json :=
  .object [("@context", .string jsonContext), ("@type", .string jsonKind), ("id", .string n.id),
    ("type", .string n.type), ("page", .string p.id),
    ("places", .array (p.places.map Place.toJson)),
    ("transitions", .array (p.transitions.map Transition.toJson)),
    ("arcs", .array (p.arcs.map Arc.toJson))]

/-- A net as an indented document; absent for a net without page. -/
def Net.toJson? (n : Net) : Option Text := n.page.map fun p => (n.jsonWith p).pretty

/-! ### Reading -/

/-- A net as it is read, before its kind is known to be the right one. -/
structure NetRecord where
  context : Text := []
  kind : Text := []
  id : Text := []
  type : Text := []
  page : Text := []
  places : Json.Slots Place := {}
  transitions : Json.Slots Transition := {}
  arcs : Json.Slots Arc := {}

namespace NetRecord

open Json (inField)

/-- A record of the given type is read member by member; null leaves it as it is. -/
def readRecord {α : Type} (typeName : Text) (member : α → Text → Json → Except Json.TypeError α)
    (old : α) : Json → Except Json.TypeError α
  | .object ms => ms.foldlM (fun a (k, j) => member a k j) old
  | .null => .ok old
  | j => .error ⟨j.kind, "parser." ++ typeName, [], []⟩

/-- Records of a list are read over those at the same places. -/
def readItems {α : Type} (item : α → Json → Except Json.TypeError α) (new : α) :
    List α → List Json → Except Json.TypeError (List α)
  | _, [] => .ok []
  | old, j :: js => do
    let a ← item (old.head?.getD new) j
    let as ← readItems item new old.tail js
    pure (a :: as)

/-- A list of records is read over an earlier one; null makes it empty. -/
def readSlots {α : Type} (typeName : Text)
    (member : α → Text → Json → Except Json.TypeError α) (new : α)
    (old : Json.Slots α) : Json → Except Json.TypeError (Json.Slots α)
  | .array js => old.replace <$> readItems (readRecord typeName member) new old.backing js
  | .null => .ok {}
  | j => .error ⟨j.kind, "[]parser." ++ typeName, [], []⟩

/-- A member of a place. -/
def placeMember (p : Place) (key : Text) (j : Json) : Except Json.TypeError Place :=
  if Json.keyMatches "id" key then do
    pure { p with id := ← inField "jsonPlace" "id" (Json.readText p.id j) }
  else if Json.keyMatches "label" key then do
    pure { p with name := ← inField "jsonPlace" "label" (Json.readText p.name j) }
  else if Json.keyMatches "initial" key then do
    pure { p with marking := ← inField "jsonPlace" "initial" (Json.readOptText j) }
  else .ok p

/-- A member of a transition. -/
def transitionMember (t : Transition) (key : Text) (j : Json) : Except Json.TypeError Transition :=
  if Json.keyMatches "id" key then do
    pure { t with id := ← inField "jsonTransition" "id" (Json.readText t.id j) }
  else if Json.keyMatches "label" key then do
    pure { t with name := ← inField "jsonTransition" "label" (Json.readText t.name j) }
  else if Json.keyMatches "guard" key then do
    pure { t with guard := ← inField "jsonTransition" "guard" (Json.readOptText j) }
  else .ok t

/-- A member of an arc. -/
def arcMember (a : Arc) (key : Text) (j : Json) : Except Json.TypeError Arc :=
  if Json.keyMatches "id" key then do
    pure { a with id := ← inField "jsonArc" "id" (Json.readText a.id j) }
  else if Json.keyMatches "source" key then do
    pure { a with source := ← inField "jsonArc" "source" (Json.readText a.source j) }
  else if Json.keyMatches "target" key then do
    pure { a with target := ← inField "jsonArc" "target" (Json.readText a.target j) }
  else if Json.keyMatches "inscription" key then do
    pure { a with inscription := ← inField "jsonArc" "inscription" (Json.readText a.inscription j) }
  else .ok a

/-- A member of a net. -/
def member (n : NetRecord) (key : Text) (j : Json) : Except Json.TypeError NetRecord :=
  if Json.keyMatches "@context" key then do
    pure { n with context := ← inField "jsonNet" "@context" (Json.readText n.context j) }
  else if Json.keyMatches "@type" key then do
    pure { n with kind := ← inField "jsonNet" "@type" (Json.readText n.kind j) }
  else if Json.keyMatches "id" key then do
    pure { n with id := ← inField "jsonNet" "id" (Json.readText n.id j) }
  else if Json.keyMatches "type" key then do
    pure { n with type := ← inField "jsonNet" "type" (Json.readText n.type j) }
  else if Json.keyMatches "page" key then do
    pure { n with page := ← inField "jsonNet" "page" (Json.readText n.page j) }
  else if Json.keyMatches "places" key then do
    pure { n with
      places := ← inField "jsonNet" "places"
        (readSlots "jsonPlace" placeMember ⟨[], [], none⟩ n.places j) }
  else if Json.keyMatches "transitions" key then do
    pure { n with
      transitions := ← inField "jsonNet" "transitions"
        (readSlots "jsonTransition" transitionMember ⟨[], [], none⟩ n.transitions j) }
  else if Json.keyMatches "arcs" key then do
    pure { n with
      arcs := ← inField "jsonNet" "arcs"
        (readSlots "jsonArc" arcMember ⟨[], [], [], []⟩ n.arcs j) }
  else .ok n

/-- The net of a record; an empty type stands for the core model. -/
def toNet (n : NetRecord) : Net where
  id := n.id
  type := if n.type.isEmpty then coreModelType else n.type
  page := some ⟨n.page, n.places.items, n.transitions.items, n.arcs.items⟩

end NetRecord

/-- Why a text is no net. -/
inductive NetJsonError where
  /-- It is no JSON. -/
  | malformed (e : Json.SyntaxError)
  /-- A member has the wrong type. -/
  | type (e : Json.TypeError)
  /-- It describes something else. -/
  | kind (k : Text)

/-- Wording of the error. -/
def NetJsonError.message : NetJsonError → Text
  | malformed e => "invalid JSON: " ++ e.message
  | type e => "invalid JSON: " ++ e.message
  | kind k => "unsupported @type " ++ k.quoted

/-- Read a net from JSON. -/
def Net.readJson (t : Text) : Except NetJsonError Net :=
  match Json.parse t with
  | .error e => .error (.malformed e)
  | .ok j =>
    match NetRecord.readRecord "jsonNet" NetRecord.member {} j with
    | .error e => .error (.type e)
    | .ok r => if r.kind.isEmpty || r.kind = jsonKind then .ok r.toNet else .error (.kind r.kind)

end ContractNet
