import ContractNet.Net.ControlFlow
import ContractNet.Expr.Literal

/-!
# Findings

What validation can find in a net.  Each finding has a severity, a category, a message, the ids of
the elements it is about, and mostly a suggestion.
-/

namespace ContractNet

/-- How bad a finding is. -/
inductive Severity where
  | error
  | warning
  | info
deriving DecidableEq

/-- The name of a severity. -/
def Severity.text : Severity → Text
  | error => "error"
  | warning => "warning"
  | info => "info"

/-- What a finding is about. -/
inductive Category where
  | contents
  | identity
  | arc
  | marking
  | connectivity
  | guard
  | literal
  | balance
  | controlFlow
deriving DecidableEq

/-- The name of a category. -/
def Category.text : Category → Text
  | contents => "structure"
  | identity => "identity"
  | arc => "arc"
  | marking => "marking"
  | connectivity => "connectivity"
  | guard => "guard"
  | literal => "literal"
  | balance => "balance"
  | controlFlow => "controlflow"

/-- The kinds of nodes. -/
inductive NodeKind where
  | place
  | transition
deriving DecidableEq

/-- The name of a kind of nodes. -/
def NodeKind.text : NodeKind → Text
  | place => "place"
  | transition => "transition"

/-- The texts of a net that hold literals. -/
inductive LabelKind where
  | marking
  | guard
  | inscription
deriving DecidableEq

/-- The name of a kind of texts. -/
def LabelKind.text : LabelKind → Text
  | marking => "initial marking"
  | guard => "guard"
  | inscription => "inscription"

/-- Something found in a net. -/
inductive Finding where
  | noPage
  | noPlaces
  | noTransitions
  | noArcs
  | emptyId
  | sharedId (id : Text) (count : Nat)
  | unknownSource (a : Arc)
  | unknownTarget (a : Arc)
  | sameKind (a : Arc) (kind : NodeKind)
  | emptyInscription (a : Arc)
  | manyUnits (places : List Text)
  | noUnit
  | isolatedPlace (p : Place)
  | noInputs (t : Transition)
  | noOutputs (t : Transition)
  | unbracketedGuard (t : Transition) (guard : Text)
  | emptyGuard (t : Transition)
  | tooLarge (literal : Text) (kind : LabelKind) (id : Text)
  | balanced
  | unbalanced (transitions : List Text)
  | branching (places : List Text)
  | unreachable (transitions : List Text)
  | chains (count longest : Nat)
deriving DecidableEq

namespace Finding

/-- The severity of a finding. -/
def severity : Finding → Severity
  | noPage | emptyId | sharedId .. | unknownSource _ | unknownTarget _ | sameKind ..
  | manyUnits _ | unbracketedGuard .. | emptyGuard _ | tooLarge .. => .error
  | noPlaces | noTransitions | noArcs | emptyInscription _ | isolatedPlace _ | noInputs _
  | noOutputs _ | branching _ | unreachable _ => .warning
  | noUnit | balanced | unbalanced _ | chains .. => .info

/-- The category of a finding. -/
def category : Finding → Category
  | noPage | noPlaces | noTransitions | noArcs => .contents
  | emptyId | sharedId .. => .identity
  | unknownSource _ | unknownTarget _ | sameKind .. | emptyInscription _ => .arc
  | manyUnits _ | noUnit => .marking
  | isolatedPlace _ | noInputs _ | noOutputs _ => .connectivity
  | unbracketedGuard .. | emptyGuard _ => .guard
  | tooLarge .. => .literal
  | balanced | unbalanced _ => .balance
  | branching _ | unreachable _ | chains .. => .controlFlow

/-- A text between single quotes. -/
def named (t : Text) : Text := "\x27" ++ t ++ "\x27"

/-- A node with its name. -/
def node (id name : Text) : Text := named id ++ " (" ++ name ++ ")"

/-- The message of a finding. -/
def message : Finding → Text
  | noPage => "Net has no page"
  | noPlaces => "Net has no places"
  | noTransitions => "Net has no transitions"
  | noArcs => "Net has no arcs"
  | emptyId => "Element has an empty id"
  | sharedId id n => "Id " ++ named id ++ " is used by " ++ Text.decimal n ++ " elements"
  | unknownSource a => "Arc " ++ named a.id ++ " has unknown source " ++ named a.source
  | unknownTarget a => "Arc " ++ named a.id ++ " has unknown target " ++ named a.target
  | sameKind a k =>
    "Arc " ++ named a.id ++ " connects two " ++ k.text ++ "s (" ++ a.source ++ " → " ++ a.target ++
      ")"
  | emptyInscription a => "Arc " ++ named a.id ++ " has an empty inscription"
  | manyUnits ps => Text.decimal ps.length ++ " places hold the initial control token"
  | noUnit => "No place holds the initial control token"
  | isolatedPlace p => "Place " ++ node p.id p.name ++ " is not connected to any transition"
  | noInputs t => "Transition " ++ node t.id t.name ++ " has no input places"
  | noOutputs t => "Transition " ++ node t.id t.name ++ " has no output places"
  | unbracketedGuard t g => "Guard of transition " ++ named t.id ++ " is not bracketed: " ++ g
  | emptyGuard t => "Guard of transition " ++ named t.id ++ " is empty"
  | tooLarge l k id =>
    "Literal " ++ l ++ " in " ++ k.text ++ " of " ++ named id ++ " does not fit in uint256"
  | balanced => "Net is balanced (all transitions have equal input/output arcs)"
  | unbalanced ts =>
    "Net is not balanced (transitions with unequal input/output arcs: [" ++ Text.join " " ts ++ "])"
  | branching ps => "Control branches at " ++ Text.decimal ps.length ++ " places"
  | unreachable ts =>
    Text.decimal ts.length ++ " transitions are not reachable from any entry place"
  | chains n m =>
    "Found " ++ Text.decimal n ++ " control chains (longest has " ++ Text.decimal m ++
      " transitions)"

/-- The ids of the elements that a finding is about. -/
def location : Finding → List Text
  | sharedId id _ => [id]
  | unknownSource a | unknownTarget a | emptyInscription a => [a.id]
  | sameKind a _ => [a.id, a.source, a.target]
  | manyUnits ps | branching ps => ps
  | isolatedPlace p => [p.id]
  | noInputs t | noOutputs t | unbracketedGuard t _ | emptyGuard t => [t.id]
  | tooLarge _ _ id => [id]
  | unbalanced ts | unreachable ts => ts
  | noPage | noPlaces | noTransitions | noArcs | emptyId | noUnit | balanced | chains .. => []

/-- What to do about a finding; empty if there is nothing to suggest. -/
def suggestion : Finding → Text
  | noPage => "Compile the contract before validating"
  | noPlaces => "Declare state variables or functions"
  | noTransitions | noArcs => "Add statements to function bodies"
  | emptyId => "Assign ids from the net's counter"
  | sharedId .. => "Ids must be unique across places, transitions and arcs"
  | unknownSource _ | unknownTarget _ => "Connect the arc to an existing place or transition"
  | sameKind .. => "Arcs must join a place and a transition"
  | emptyInscription _ => "Inscribe the token value carried by the arc"
  | manyUnits _ => "Only the constructor entry place may be marked"
  | isolatedPlace _ => "Unused state variables and empty functions produce isolated places"
  | noInputs _ => "Add an input arc from the preceding control place"
  | noOutputs _ => "Add an output arc to a control place"
  | unbracketedGuard .. => "Write guards as [condition]"
  | emptyGuard _ => "Remove the guard or give it a condition"
  | tooLarge .. => "Integer values are 256-bit words"
  | branching _ => "Each control place should lead to a single statement"
  | unreachable _ => "Connect the transitions to a function's control chain"
  | noUnit | balanced | unbalanced _ | chains .. => []

/-- A finding as JSON. -/
def toJson (f : Finding) : Json :=
  .record [("severity", some (.string f.severity.text)),
    ("category", some (.string f.category.text)), ("message", some (.string f.message)),
    ("location", Json.unlessNil (f.location.map .string)),
    ("suggestion", Json.unlessEmpty f.suggestion)]

end Finding

end ContractNet
