import ContractNet.Contract.Basic
import ContractNet.Net.Draft

/-!
# The net of a contract

State variables become places.  Each function becomes a chain of control places and transitions
that follows its statements; the first place of the constructor's chain holds the only token of
control.  An assignment to a state variable takes the old value from the place of the variable
and gives the new one back; calls leave no trace.

`Net.ofContract` fails only on a statement that is no assignment, call or condition.
-/

namespace ContractNet

/-- Names and inscriptions of the net.  An empty one stands for its default. -/
structure NetOptions where
  netId : Text := []
  netType : Text := []
  pageId : Text := []
  /-- What ids start with. -/
  idStem : Text := []
  /-- The initial marking of the constructor's first place. -/
  unit : Text := []
  /-- The inscription of control arcs. -/
  control : Text := []
  /-- The variable that stands for an old value. -/
  bound : Text := []
deriving DecidableEq

namespace NetOptions

/-- The conventional names. -/
def default : NetOptions where
  netId := "net1"
  netType := coreModelType
  pageId := "page1"
  idStem := "id"
  unit := "1`()"
  control := "()"
  bound := "x"

/-- `t`, or `d` if it is empty. -/
def orElse (t d : Text) : Text := if t.isEmpty then d else t

/-- Defaults in place of what is empty. -/
def filled (o : NetOptions) : NetOptions where
  netId := orElse o.netId default.netId
  netType := orElse o.netType default.netType
  pageId := orElse o.pageId default.pageId
  idStem := orElse o.idStem default.idStem
  unit := orElse o.unit default.unit
  control := orElse o.control default.control
  bound := orElse o.bound default.bound

end NetOptions

/-- Why a contract has no net. -/
inductive CompileError where
  | noContract
  /-- The statement at this place of a function is of no known kind. -/
  | unhandled (function : Text) (place : Nat)
deriving DecidableEq

/-- Wording of the error. -/
def CompileError.message : CompileError → Text
  | noContract => "transform: nil contract"
  | unhandled f i =>
    "transform: " ++ f ++ " statement " ++ Text.decimal i ++ ": unhandled statement type <nil>"

/-! ### Inscriptions -/

/-- The variable for the old value of the target: one that the new value does not mention. -/
def Operation.boundVariable (bound : Text) (op : Operation) : Text :=
  Expr.freshName op.expression bound

/-- The new value in terms of the old one. -/
def Operation.newValue (bound : Text) (op : Operation) : Text :=
  let x := op.boundVariable bound
  let value := Expr.substitute op.expression op.target x
  let binary := Expr.compoundOperator op.operator
  if binary.isEmpty then value else x ++ " " ++ binary ++ " (" ++ value ++ ")"

/-! ### Steps of control -/

/-- What a statement adds to the chain of its function. -/
structure ControlStep where
  /-- Name of the transition. -/
  name : Text
  /-- Guard of the transition. -/
  guard : Option Text
  /-- Name of the control place after it. -/
  after : Text
  /-- The assignment, if it is one. -/
  operation : Option Operation

/-- The step of a statement in the function `f`; calls take none. -/
def ControlStep.of? (f : Text) : Statement → Option ControlStep
  | .operation o => some {
      name := f ++ "_op_" ++ o.target
      guard := none
      after := "ctrl"
      operation := some o }
  | .conditional c => some {
      name := c.kind ++ "_" ++ Text.integer c.startLine
      guard := some ("[" ++ c.guard ++ "]")
      after := "ctrl_after_" ++ c.kind
      operation := none }
  | .call _ => none
  | .unknown => none

namespace Draft

/-- One place for each variable, with its initial value. -/
def addVariables (d : Draft) (vs : List StateVariable) : Draft :=
  vs.foldl (fun d v => d.addPlace v.name (if v.initial.isEmpty then none else some v.initial)) d

/-- The id of the last of the places with the given name. -/
def lastNamed? (places : List Place) (name : Text) : Option Text :=
  (places.reverse.find? (·.name = name)).map (·.id)

/-- The arcs between the transition `t` and the place of the variable that it assigns to. -/
def addData (d : Draft) (o : NetOptions) (vars : List Place) (t : Text) (op : Operation) :
    Draft :=
  match lastNamed? vars op.target with
  | some p => d.addFlow p t p (op.boundVariable o.bound) (op.newValue o.bound)
  | none => d

/-- One step of control from the place `current`: a transition and the place after it. -/
def addStep (d : Draft) (o : NetOptions) (vars : List Place) (current : Text)
    (s : ControlStep) : Draft × Text :=
  let t := d.nextId
  let d := (d.addTransition s.name s.guard).addArc current t o.control
  let d := match s.operation with
    | some op => d.addData o vars t op
    | none => d
  let next := d.nextId
  ((d.addPlace s.after none).addArc t next o.control, next)

/-- The steps one after the other. -/
def addSteps (d : Draft) (o : NetOptions) (vars : List Place) (current : Text) :
    List ControlStep → Draft
  | [] => d
  | s :: ss =>
    let (d', next) := d.addStep o vars current s
    d'.addSteps o vars next ss

/-- The chain of a function; `marked` tells whether control starts there. -/
def addFunction (d : Draft) (o : NetOptions) (vars : List Place) (marked : Bool)
    (f : Function) : Draft :=
  let entry := d.nextId
  (d.addPlace (f.name ++ "_entry") (if marked then some o.unit else none)).addSteps o vars
    entry (f.body.filterMap (ControlStep.of? f.name))

/-- The page of a contract. -/
def ofContract (o : NetOptions) (c : Contract) : Draft :=
  let d := (empty o.pageId o.idStem).addVariables c.stateVariables
  let vars := d.page.places
  let d := c.constructor.toList.foldl (fun d f => d.addFunction o vars true f) d
  c.functions.foldl (fun d f => d.addFunction o vars false f) d

end Draft

/-- The place of the first statement of unknown kind. -/
def Function.unknownAt? (f : Function) : Option Nat := f.body.findIdx? (· = .unknown)

/-- The first function with a statement of unknown kind. -/
def Contract.unhandled? (c : Contract) : Option CompileError :=
  c.allFunctions.findSome? fun f => f.unknownAt?.map (.unhandled f.name)

/-- The net of a contract. -/
def Net.ofContract (o : NetOptions) : Option Contract → Except CompileError Net
  | none => .error .noContract
  | some c =>
    match c.unhandled? with
    | some e => .error e
    | none => .ok ((Draft.ofContract o.filled c).toNet o.filled.netId o.filled.netType)

end ContractNet
