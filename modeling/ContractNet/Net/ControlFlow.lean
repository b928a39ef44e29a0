import ContractNet.Net.OfContract
import ContractNet.Json.Basic

/-!
# Control flow of a net

Control arcs are those with the control inscription.  An entry is a place that control starts
from: it holds the unit marking or a control arc leaves it, and no control arc leads to it.  From
each entry the control arcs are followed breadth first (`explore`).
-/

namespace ContractNet

/-- Which inscription marks control arcs, and which marking the token of control. -/
structure Labels where
  control : Text
  unit : Text
deriving DecidableEq

namespace Labels

/-- The labels of nets with conventional names. -/
def default : Labels := ⟨NetOptions.default.control, NetOptions.default.unit⟩

/-- Defaults in place of what is empty. -/
def filled (l : Labels) : Labels :=
  ⟨NetOptions.orElse l.control default.control, NetOptions.orElse l.unit default.unit⟩

end Labels

/-- The control path from an entry. -/
structure Chain where
  entry : Text
  /-- The transitions in the order in which they are reached. -/
  transitions : List Text
  /-- The first place where control rests; empty if there is none. -/
  rest : Text
deriving DecidableEq

/-- The control flow of a net. -/
structure ControlFlow where
  chains : List Chain := []
  /-- Places with more than one control arc leaving them. -/
  branching : List Text := []
  /-- Transitions that are reached from no entry. -/
  unreachable : List Text := []
deriving DecidableEq

/-- Breadth-first search: the nodes in the order in which they are reached, given those that were
`seen` and those that wait.  At most `fuel` nodes are expanded. -/
def explore (next : Text → List Text) : Nat → List Text → List Text → List Text
  | 0, _, _ => []
  | _, _, [] => []
  | fuel + 1, seen, node :: waiting =>
    let new := (next node).eraseDups.filter fun n => !seen.contains n
    node :: explore next fuel (seen ++ new) (waiting ++ new)

namespace Page

variable (p : Page) (l : Labels)

/-- The control arcs. -/
def controlArcs : List Arc := p.arcs.filter (·.inscription = l.control)

/-- The nodes that control arcs lead to from a node, one for each arc. -/
def controlNext (node : Text) : List Text :=
  ((p.controlArcs l).filter (·.source = node)).map (·.target)

/-- The id is that of a transition. -/
def isTransition (id : Text) : Bool := p.transitions.any (·.id = id)

/-- The place holds the token of control. -/
def holdsUnit (q : Place) : Bool := q.marking = some l.unit

/-- Control starts from the place. -/
def isEntry (q : Place) : Bool :=
  !(p.controlArcs l).any (·.target = q.id) &&
    ((p.controlArcs l).any (·.source = q.id) || holdsUnit l q)

/-- The places that control starts from. -/
def entries : List Place := p.places.filter (p.isEntry l)

/-- The nodes reached from a node.  Each of them but the first is the target of an arc. -/
def reached (start : Text) : List Text :=
  explore (p.controlNext l) (p.arcs.length + 1) [start] [start]

/-- The chain of an entry. -/
def chain (q : Place) : Chain :=
  let nodes := p.reached l q.id
  { entry := q.id
    transitions := nodes.filter p.isTransition
    rest := (nodes.find? fun n =>
      !p.isTransition n && (p.controlNext l n).isEmpty && !n.isEmpty).getD [] }

/-- The places reached from an entry that more than one control arc leaves. -/
def branches (q : Place) : List Text :=
  (p.reached l q.id).filter fun n => !p.isTransition n && 1 < (p.controlNext l n).length

/-- The control flow of a page. -/
def controlFlow : ControlFlow :=
  let entries := p.entries l
  let chains := entries.map (p.chain l)
  { chains := chains
    branching := entries.flatMap (p.branches l)
    unreachable := (p.transitions.map (·.id)).filter fun t =>
      !chains.any fun c => c.transitions.contains t }

end Page

namespace ControlFlow

/-- The number of transitions of the longest chain. -/
def longest (f : ControlFlow) : Nat := (f.chains.map (·.transitions.length)).foldl max 0

/-- Lists of ids as JSON. -/
def idsJson (ids : List Text) : List Json := ids.map .string

/-- A chain as JSON. -/
def chainJson (c : Chain) : Json :=
  .record [("entry", some (.string c.entry)),
    ("transitions", some (Json.listOrNull (idsJson c.transitions))),
    ("exit", Json.unlessEmpty c.rest)]

/-- The control flow as JSON. -/
def toJson (f : ControlFlow) : Json :=
  .record [("chains", some (Json.listOrNull (f.chains.map chainJson))),
    ("branching", Json.unlessNil (idsJson f.branching)),
    ("unreachable", Json.unlessNil (idsJson f.unreachable)),
    ("maxLength", some (.nat f.longest))]

end ControlFlow

/-- The control flow of a net; without a page there is none. -/
def Net.controlFlow (l : Labels) (n : Option Net) : ControlFlow :=
  match n.bind (·.page) with
  | some p => p.controlFlow l.filled
  | none => {}

end ContractNet
