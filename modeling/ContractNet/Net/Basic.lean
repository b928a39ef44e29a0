import ContractNet.Text.Basic

/-!
# Coloured Petri nets

A net has one page of places, transitions and arcs in the order of their creation.  Each element
has an id; arcs name their ends by ids.  Nothing in the types asks for ids to be unique or for
arcs to end at existing elements: that is for validation to find out.
-/

namespace ContractNet

/-- A holder of tokens. -/
structure Place where
  id : Text
  name : Text
  /-- The tokens at the start; absent if the place starts empty. -/
  marking : Option Text := none
deriving DecidableEq

/-- An event. -/
structure Transition where
  id : Text
  name : Text
  /-- The condition of the event; absent if there is none. -/
  guard : Option Text := none
deriving DecidableEq

/-- A directed connection; the inscription tells which tokens are taken or given. -/
structure Arc where
  id : Text
  source : Text
  target : Text
  inscription : Text
deriving DecidableEq

/-- The elements of a net in the order of their creation. -/
structure Page where
  id : Text
  places : List Place := []
  transitions : List Transition := []
  arcs : List Arc := []
deriving DecidableEq

/-- A net with at most one page. -/
structure Net where
  id : Text
  /-- The address of the grammar that the net belongs to. -/
  type : Text
  page : Option Page
deriving DecidableEq

/-- The type of a net without a type of its own. -/
def coreModelType : Text := "http://www.pnml.org/version-2009/grammar/pnmlcoremodel"

namespace Page

variable (p : Page)

/-- The place with the given id. -/
def findPlace? (id : Text) : Option Place := p.places.find? (·.id = id)

/-- The transition with the given id. -/
def findTransition? (id : Text) : Option Transition := p.transitions.find? (·.id = id)

/-- The first place with the given name. -/
def placeNamed? (name : Text) : Option Place := p.places.find? (·.name = name)

/-- The first transition with the given name. -/
def transitionNamed? (name : Text) : Option Transition := p.transitions.find? (·.name = name)

/-- The arcs that lead to a node. -/
def inputs (id : Text) : List Arc := p.arcs.filter (·.target = id)

/-- The arcs that lead away from a node. -/
def outputs (id : Text) : List Arc := p.arcs.filter (·.source = id)

/-- The places with an initial marking. -/
def marked : List Place := p.places.filter (·.marking.isSome)

/-- All ids: those of the places, the transitions and the arcs. -/
def ids : List Text := p.places.map (·.id) ++ p.transitions.map (·.id) ++ p.arcs.map (·.id)

end Page

namespace Net

/-- The page, or an empty one. -/
def thePage (n : Net) : Page := n.page.getD { id := [] }

/-- The size of a net in one line. -/
def describe (n : Net) : Text :=
  "net " ++ n.id ++ ": " ++ Text.decimal n.thePage.places.length ++ " places, " ++
    Text.decimal n.thePage.transitions.length ++ " transitions, " ++
    Text.decimal n.thePage.arcs.length ++ " arcs"

end Net

end ContractNet
