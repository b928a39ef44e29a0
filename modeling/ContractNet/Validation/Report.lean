import ContractNet.Validation.Finding
import ContractNet.Text.Blank

/-!
# Validation of nets

`Net.validate` looks for faults and oddities of a net: ids that are empty or shared, arcs that join
no place with a transition, more than one token of control, nodes without arcs, guards that are no
conditions, literals beyond 256 bits, transitions that take and give unequally, and the shape of
the control flow.  A net is valid if no finding is an error.
-/

namespace ContractNet

namespace Page

variable (p : Page) (l : Labels)

/-! ### Checks -/

/-- A page without places, transitions or arcs. -/
def checkContents : List Finding :=
  (if p.places.isEmpty then [.noPlaces] else []) ++
  (if p.transitions.isEmpty then [.noTransitions] else []) ++
  (if p.arcs.isEmpty then [.noArcs] else [])

/-- Ids that are empty, and ids that several elements share. -/
def checkIds : List Finding :=
  let named := p.ids.filter (· ≠ [])
  (p.ids.filter (· = [])).map (fun _ => .emptyId) ++
  named.eraseDups.filterMap fun id =>
    if 1 < named.count id then some (.sharedId id (named.count id)) else none

/-- The kind of the node with the given id; a transition comes before a place. -/
def kindOf? (id : Text) : Option NodeKind :=
  if p.transitions.any (·.id = id) then some .transition
  else if p.places.any (·.id = id) then some .place
  else none

/-- An arc with unknown ends, ends of the same kind, or without inscription. -/
def checkArc (a : Arc) : List Finding :=
  (if (p.kindOf? a.source).isNone then [.unknownSource a] else []) ++
  (if (p.kindOf? a.target).isNone then [.unknownTarget a] else []) ++
  (match p.kindOf? a.source, p.kindOf? a.target with
    | some s, some t => if s = t then [.sameKind a s] else []
    | _, _ => []) ++
  (if a.inscription.isBlank then [.emptyInscription a] else [])

/-- The places with the token of control. -/
def units : List Text := (p.places.filter (holdsUnit l)).map (·.id)

/-- More than one token of control, or none. -/
def checkUnits : List Finding :=
  match p.units l with
  | [] => [.noUnit]
  | [_] => []
  | ids => [.manyUnits ids]

/-- A place that no arc touches. -/
def checkPlace (q : Place) : List Finding :=
  if p.arcs.any fun a => a.source = q.id || a.target = q.id then [] else [.isolatedPlace q]

/-- A transition without arcs to it or from it. -/
def checkTransition (t : Transition) : List Finding :=
  (if (p.inputs t.id).isEmpty then [.noInputs t] else []) ++
  (if (p.outputs t.id).isEmpty then [.noOutputs t] else [])

/-- A guard that is no condition in brackets. -/
def checkGuard (t : Transition) : List Finding :=
  match t.guard with
  | none => []
  | some g =>
    let g := g.trim
    if !g.startsWith "[" || !g.endsWith "]" then [.unbracketedGuard t g]
    else if Text.isBlank (g.drop 1).dropLast then [.emptyGuard t]
    else []

/-- Integer literals of a text that are no 256-bit words. -/
def checkLiterals (kind : LabelKind) (id text : Text) : List Finding :=
  (Expr.tokenize text).filterMap fun t =>
    if t.kind = .number && Expr.isIntegerLiteral t.literal &&
        (Expr.parseUint t.literal).toOption.isNone then
      some (.tooLarge t.literal kind id)
    else none

/-- The literals of all texts. -/
def checkAllLiterals : List Finding :=
  p.places.flatMap (fun q => (q.marking.map (checkLiterals .marking q.id)).getD []) ++
  p.transitions.flatMap (fun t => (t.guard.map (checkLiterals .guard t.id)).getD []) ++
  p.arcs.flatMap fun a => checkLiterals .inscription a.id a.inscription

/-- The transitions with more arcs on one side than on the other. -/
def unbalancedTransitions : List Text :=
  (p.transitions.map (·.id)).filter fun t => (p.inputs t).length ≠ (p.outputs t).length

/-- Whether the transitions are balanced. -/
def checkBalance : List Finding :=
  match p.unbalancedTransitions with
  | [] => [.balanced]
  | ts => [.unbalanced ts]

/-- The shape of the control flow. -/
def checkControlFlow : List Finding :=
  let f := p.controlFlow l
  (if f.branching.isEmpty then [] else [.branching f.branching]) ++
  (if f.unreachable.isEmpty then [] else [.unreachable f.unreachable]) ++
  [.chains f.chains.length f.longest]

/-- All findings, check after check. -/
def findings : List Finding :=
  p.checkContents ++ p.checkIds ++ p.arcs.flatMap p.checkArc ++ p.checkUnits l ++
    p.places.flatMap p.checkPlace ++ p.transitions.flatMap p.checkTransition ++
    p.transitions.flatMap checkGuard ++ p.checkAllLiterals ++ p.checkBalance ++
    p.checkControlFlow l

end Page

/-! ### Reports -/

/-- The result of validation. -/
structure Report where
  findings : List Finding
  places : Nat := 0
  transitions : Nat := 0
  arcs : Nat := 0
  balanced : Bool := false
  controlFlow : Option ControlFlow := none

/-- Validate a page. -/
def Page.validate (p : Page) (l : Labels) : Report where
  findings := p.findings l
  places := p.places.length
  transitions := p.transitions.length
  arcs := p.arcs.length
  balanced := p.unbalancedTransitions.isEmpty
  controlFlow := some (p.controlFlow l)

/-- Validate a net.  Empty labels stand for their defaults. -/
def Net.validate (l : Labels) (n : Option Net) : Report :=
  match n.bind (·.page) with
  | some p => p.validate l.filled
  | none => { findings := [.noPage] }

namespace Report

variable (r : Report)

/-- The findings of a severity. -/
def ofSeverity (s : Severity) : List Finding := r.findings.filter (·.severity = s)

/-- The errors. -/
def errors : List Finding := r.ofSeverity .error

/-- The warnings. -/
def warnings : List Finding := r.ofSeverity .warning

/-- Neither errors nor warnings. -/
def infos : List Finding := r.ofSeverity .info

/-- There is no error. -/
def valid : Bool := r.errors.isEmpty

/-- The sizes as JSON. -/
def summaryJson : Json :=
  .object [("places", .nat r.places), ("transitions", .nat r.transitions), ("arcs", .nat r.arcs),
    ("errors", .nat r.errors.length), ("warnings", .nat r.warnings.length),
    ("balanced", .bool r.balanced)]

/-- The report as JSON. -/
def toJson : Json :=
  .record [("valid", some (.bool r.valid)),
    ("errors", Json.unlessNil (r.errors.map Finding.toJson)),
    ("warnings", Json.unlessNil (r.warnings.map Finding.toJson)),
    ("info", Json.unlessNil (r.infos.map Finding.toJson)),
    ("summary", some r.summaryJson),
    ("controlFlow", r.controlFlow.map ControlFlow.toJson)]

end Report

end ContractNet
