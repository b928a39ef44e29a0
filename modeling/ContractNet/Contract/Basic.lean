import ContractNet.Expr.Variables

/-!
# Contracts

The model of a contract: its state variables, and its functions with the statements of their
bodies in the order of execution.  A statement changes a variable, calls something, or tests a
condition.

* `Conditional.guard` is the expression that a condition tests;
* `Contract.allFunctions` puts the constructor before the other functions;
* `Contract.summary` describes a contract in a few lines.
-/

namespace ContractNet

/-- A variable of a contract. -/
structure StateVariable where
  name : Text
  type : Text
  /-- The initial value; empty if there is none. -/
  initial : Text := []
  /-- The type of the index, for mappings and arrays only. -/
  index : Text := []
  visibility : Text
deriving DecidableEq

/-- A parameter or returned value; its name may be empty. -/
structure Parameter where
  type : Text
  name : Text := []
deriving DecidableEq

/-- An assignment to a variable. -/
structure Operation where
  target : Text
  expression : Text
  /-- `=`, `+=`, … -/
  operator : Text
  /-- The variables that are read. -/
  sources : List Text := []
deriving DecidableEq

/-- A call of anything but a guard. -/
structure FunctionCall where
  name : Text
  /-- The texts of the arguments; absent if nothing is known of them. -/
  arguments : Option (List Text)
  line : Int
deriving DecidableEq

/-- A branch, or a guard that has to hold. -/
structure Conditional where
  /-- `if`, `require` or `assert`. -/
  kind : Text
  /-- The condition of a branch; all arguments of a guard. -/
  condition : Text
  startLine : Int
  /-- The last line of a branch; 0 for a guard. -/
  endLine : Int := 0
deriving DecidableEq

/-- A statement of a function body. -/
inductive Statement where
  | operation (o : Operation)
  | call (c : FunctionCall)
  | conditional (c : Conditional)
  /-- A statement that is none of the others. -/
  | unknown
deriving DecidableEq

/-- A function with its statements in the order of execution. -/
structure Function where
  name : Text
  visibility : Text
  parameters : List Parameter := []
  returns : List Parameter := []
  body : List Statement := []
deriving DecidableEq

/-- The model of a contract. -/
structure Contract where
  name : Text
  stateVariables : List StateVariable := []
  constructor : Option Function := none
  functions : List Function := []
deriving DecidableEq

/-- The name of the function that sets up a contract. -/
def constructorName : Text := "constructor"

/-- The kind of a branch. -/
def Conditional.ifKind : Text := "if"

/-- The function sets up the contract. -/
def Function.isConstructor (f : Function) : Bool := f.name = constructorName

/-- The expression that is tested: all of the condition for a branch, the first argument for a
guard, whose further arguments explain its failure. -/
def Conditional.guard (c : Conditional) : Text :=
  if c.kind = Conditional.ifKind then c.condition else Expr.firstArgument c.condition

namespace Statement

/-- The name of the kind of statement. -/
def typeName : Statement → Text
  | operation _ => "operation"
  | call _ => "call"
  | conditional _ => "conditional"
  | unknown => "<nil>"

/-- The statement for people to read. -/
def describe : Statement → Text
  | operation o => o.target ++ " " ++ o.operator ++ " " ++ o.expression
  | call c => c.name ++ "(" ++ Text.join ", " (c.arguments.getD []) ++ ")"
  | conditional c => c.kind ++ "(" ++ c.condition ++ ")"
  | unknown => "%!s(<nil>)"

end Statement

namespace Contract

variable (c : Contract)

/-- The constructor, if there is one, and then the other functions. -/
def allFunctions : List Function := c.constructor.toList ++ c.functions

/-- The first variable with the given name. -/
def findVariable? (name : Text) : Option StateVariable := c.stateVariables.find? (·.name = name)

/-- The first function with the given name; the constructor has a name of its own. -/
def findFunction? (name : Text) : Option Function :=
  if name = constructorName then c.constructor else c.functions.find? (·.name = name)

/-! ### Summary -/

/-- The line of a variable. -/
def variableLine (v : StateVariable) : Text :=
  let type := if v.index.isEmpty then v.type else v.index ++ " => " ++ v.type
  "  var " ++ v.visibility ++ " " ++ type ++ " " ++ v.name ++
    (if v.initial.isEmpty then ([] : Text) else " = " ++ v.initial) ++ "\n"

/-- The line of a statement. -/
def statementLine (s : Statement) : Text := "    " ++ s.describe ++ "\n"

/-- The lines of a function. -/
def functionLines (f : Function) : Text :=
  "  func " ++ f.visibility ++ " " ++ f.name ++ " (" ++ Text.decimal f.body.length ++
    " statements)\n" ++ f.body.flatMap statementLine

/-- The contract in a few lines: variables, then functions with their statements. -/
def summary : Text :=
  "contract " ++ c.name ++ "\n" ++ c.stateVariables.flatMap variableLine ++
    c.allFunctions.flatMap functionLines

end Contract

end ContractNet
