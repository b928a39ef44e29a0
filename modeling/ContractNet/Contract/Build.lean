import ContractNet.Contract.Basic
import ContractNet.Syntax.Tree
import ContractNet.Text.Quoted

/-!
# Contracts from parse trees

A parse tree of a source file with exactly one contract gives the model of this contract.
Interfaces and libraries do not count as contracts.

The members of the contract are the state variable declarations and function definitions that are
reached from its definition (`members`); the statements of a function are those reached through
blocks and wrappers only (`statements`), so neither branches nor loops are entered.  Each of them
is read on its own, and the first that lacks a part it needs is reported (`BuildError`).
Statements of other shapes are left out.
-/

namespace ContractNet

open Syntax

/-! ### Names of the grammar -/

namespace Rule

/-- Contracts, interfaces and libraries. -/
def contractDefinition : Text := "contractDefinition"
/-- Variables of a contract. -/
def stateVariable : Text := "stateVariableDeclaration"
/-- Types. -/
def typeName : Text := "typeName"
/-- Mapping types. -/
def mapping : Text := "mapping"
/-- The type of the key of a mapping. -/
def mappingKey : Text := "mappingKey"
/-- Functions. -/
def function : Text := "functionDefinition"
/-- Constructors with a rule of their own. -/
def constructor : Text := "constructorDefinition"
/-- The word `function` or `constructor` with the name. -/
def descriptor : Text := "functionDescriptor"
/-- Visibility and modifiers of a function. -/
def modifiers : Text := "modifierList"
/-- Parameters in parentheses. -/
def parameterList : Text := "parameterList"
/-- One parameter. -/
def parameter : Text := "parameter"
/-- The returned values of a function. -/
def returns : Text := "returnParameters"
/-- Statements in braces. -/
def block : Text := "block"
/-- Any statement. -/
def statement : Text := "statement"
/-- A statement without parts that are statements. -/
def simpleStatement : Text := "simpleStatement"
/-- An expression as a statement. -/
def expressionStatement : Text := "expressionStatement"
/-- A branch. -/
def ifStatement : Text := "ifStatement"
/-- Any expression. -/
def expression : Text := "expression"
/-- What stands between the parentheses of a call. -/
def callArguments : Text := "functionCallArguments"
/-- Expressions with commas between them. -/
def expressionList : Text := "expressionList"
/-- A name. -/
def identifier : Text := "identifier"

end Rule

/-! ### Errors -/

/-- What keeps a tree from being modelled. -/
inductive BuildFault where
  | noTree
  | noContract
  | secondContract
  | noContractName
  | noVariableType
  | noVariableName
  | incompleteMapping (name : Text)
  | noDescriptor
  | noParameterType
  | noCondition
  | noExpression
deriving DecidableEq

/-- The classes of faults. -/
inductive BuildFault.Class where
  | malformedTree
  | noContract
  | multipleContracts
deriving DecidableEq

/-- A fault with the rule and the lines of the node where it shows. -/
structure BuildError where
  construct : Text
  location : Text
  fault : BuildFault
deriving DecidableEq

namespace BuildFault

/-- A tree without contract, with too many, or with an incomplete one. -/
def cls : BuildFault → Class
  | noContract => .noContract
  | secondContract => .multipleContracts
  | _ => .malformedTree

/-- Wording of a fault. -/
def message : BuildFault → Text
  | noTree => "nil parse tree"
  | noContract => "no contract definition found"
  | secondContract => "second contract definition found"
  | noContractName => "contract definition has no identifier"
  | noVariableType => "state variable declaration has no type"
  | noVariableName => "state variable declaration has no identifier"
  | incompleteMapping n => "mapping of " ++ n.quoted ++ " is missing its key or value type"
  | noDescriptor => "function definition has no descriptor"
  | noParameterType => "parameter has no type"
  | noCondition => "if statement has no condition"
  | noExpression => "expression statement has no expression"

/-- The fault at a node. -/
def atNode (n : Tree) (f : BuildFault) : BuildError :=
  { construct := if n.isToken then "token " ++ n.text.quoted else n.name
    location := n.location
    fault := f }

end BuildFault

/-- Wording of a fault with its place. -/
def BuildError.message (e : BuildError) : Text :=
  e.construct ++ " at " ++ e.location ++ ": " ++ e.fault.message

/-- The value, or the fault at a node. -/
def require {α : Type} (n : Tree) (f : BuildFault) : Option α → Except BuildError α
  | some a => .ok a
  | none => .error (f.atNode n)

/-! ### Finding the contract -/

/-- The first token of a definition apart from `abstract`, if only tokens stand before it. -/
def leadingKeyword : List Tree → Text
  | [] => []
  | t :: ts =>
    if !t.isToken then []
    else if t.text = "abstract" then leadingKeyword ts
    else t.text

/-- The definition is of an interface or a library. -/
def isInterfaceOrLibrary (t : Tree) : Bool :=
  leadingKeyword t.kids = "interface" || leadingKeyword t.kids = "library"

mutual

/-- The contract definitions that stand in no other definition. -/
def contracts : Tree → List Tree
  | .rule n source start stop ks =>
    if n = Rule.contractDefinition then
      if isInterfaceOrLibrary (.rule n source start stop ks) then []
      else [.rule n source start stop ks]
    else contractsAll ks
  | .token .. => []

/-- The contract definitions in several trees. -/
def contractsAll : List Tree → List Tree
  | [] => []
  | t :: ts => contracts t ++ contractsAll ts

end

/-! ### Members -/

/-- The node declares a variable or defines a function. -/
def isMember (t : Tree) : Bool :=
  t.name = Rule.stateVariable || t.name = Rule.function || t.name = Rule.constructor

mutual

/-- The declarations and definitions at or below a node; tokens, names and members are not
entered. -/
def members : Tree → List Tree
  | .rule n source start stop ks =>
    if n.isEmpty || n = Rule.identifier then []
    else if isMember (.rule n source start stop ks) then [.rule n source start stop ks]
    else membersAll ks
  | .token .. => []

/-- The declarations and definitions in several trees. -/
def membersAll : List Tree → List Tree
  | [] => []
  | t :: ts => members t ++ membersAll ts

end

/-! ### State variables -/

/-- The visibility words of variables. -/
def variableVisibilities : List Text := ["public", "private", "internal"]

/-- The visibility words of functions. -/
def functionVisibilities : List Text := ["public", "private", "internal", "external"]

/-- The visibility of what declares none. -/
def defaultVisibility : Text := "internal"

/-- The first visibility word between the type and the name. -/
def variableVisibility (t : Tree) : Text :=
  let between := (t.kids.drop 1).takeWhile (·.name ≠ Rule.identifier)
  ((between.map Tree.text).find? (variableVisibilities.contains ·)).getD defaultVisibility

/-- The node is the token `s`. -/
def isTokenOf (s : Text) (t : Tree) : Bool := t.isToken && t.text = s

/-- The children of a type are those of an array type: an element type with brackets. -/
def isArrayType (kids : List Tree) : Bool :=
  3 ≤ kids.length && kids[1]?.any (isTokenOf "[") && kids.getLast?.any (isTokenOf "]")

/-- The index type and the element type that the children of a type tell, if they tell them. -/
def indexedType (name : Text) (kids : List Tree) : Except BuildError (Option (Text × Text)) :=
  match kids with
  | [] => .ok none
  | first :: _ =>
    if first.name = Rule.mapping then
      match first.child? Rule.mappingKey, first.child? Rule.typeName with
      | some key, some value => .ok (some (key.text, value.text))
      | _, _ => .error ((BuildFault.incompleteMapping name).atNode first)
    else if first.name = Rule.typeName && isArrayType kids then .ok (some ("uint256", first.text))
    else .ok none

/-- The variable that a node declares. -/
def readVariable (t : Tree) : Except BuildError StateVariable := do
  let type ← require t .noVariableType (t.child? Rule.typeName)
  let ident ← require t .noVariableName (t.child? Rule.identifier)
  let indexed ← indexedType ident.text type.kids
  pure {
    name := ident.text
    type := (indexed.map Prod.snd).getD type.text
    initial := ((t.child? Rule.expression).map Tree.text).getD []
    index := (indexed.map Prod.fst).getD []
    visibility := variableVisibility t }

/-! ### Statements -/

/-- The node only groups statements. -/
def isWrapper (name : Text) : Bool :=
  name = Rule.statement || name = Rule.simpleStatement || name = Rule.block

mutual

/-- The branches and expression statements that are reached from a node through wrappers. -/
def statements : Tree → List Tree
  | .rule n source start stop ks =>
    if isWrapper n then statementsAll ks
    else if n = Rule.expressionStatement || n = Rule.ifStatement then
      [.rule n source start stop ks]
    else []
  | .token .. => []

/-- The statements reached from several nodes. -/
def statementsAll : List Tree → List Tree
  | [] => []
  | t :: ts => statements t ++ statementsAll ts

end

/-- The branch at a node. -/
def readIf (t : Tree) : Except BuildError Statement := do
  let cond ← require t .noCondition (t.child? Rule.expression)
  pure (.conditional {
    kind := Conditional.ifKind
    condition := cond.text
    startLine := t.startLine
    endLine := t.endLine })

/-- `name` before the list, unless it is empty or in the list. -/
def withSource (name : Text) (sources : List Text) : List Text :=
  if name.isEmpty || sources.contains name then sources else name :: sources

/-- The assignment of the right-hand side `value` to `target`. -/
def assignmentOf (target op value : Text) : Operation :=
  let read := Expr.identifiers value
  { target := target
    expression := value
    operator := op
    sources := if op = "=" then read else withSource (Expr.baseIdentifier target) read }

/-- The assignment in an expression of the shape `target op value`. -/
def readAssignment? : List Tree → Option Operation
  | [target, op, value] =>
    if target.name = Rule.expression && value.name = Rule.expression && op.isToken &&
        Expr.isAssignment op.text then
      some (assignmentOf target.text op.text value.text)
    else none
  | _ => none

/-- The argument text of a guard: that of the list of arguments, or else what stands between the
parentheses. -/
def guardText (args : Tree) (list : Option Tree) : Text :=
  match list with
  | some l => l.text.trim
  | none =>
    let inner := (Text.after? "(" args.text).getD args.text
    if inner.endsWith ")" then Text.trim inner.dropLast else inner.trim

/-- The call or guard in an expression, if it is one: a callee and arguments. -/
def readCall? (line : Int) (e : Tree) : Option Statement :=
  match e.child? Rule.callArguments, e.kids with
  | some args, callee :: _ =>
    if callee.name ≠ Rule.expression then none
    else
      let list := args.child? Rule.expressionList
      let name := callee.text
      if name = "require" || name = "assert" then
        some (.conditional { kind := name, condition := guardText args list, startLine := line })
      else
        let texts := (list.map fun l => (l.children Rule.expression).map Tree.text).getD []
        some (.call { name := name, arguments := some texts, line := line })
  | _, _ => none

/-- The statement of an expression: an assignment, a guard, a call, or nothing. -/
def readExpression (t : Tree) : Except BuildError (Option Statement) := do
  let e ← require t .noExpression (t.child? Rule.expression)
  match readAssignment? e.kids with
  | some o => pure (some (.operation o))
  | none => pure (readCall? t.startLine e)

/-- The statement at a node that `statements` lists. -/
def readStatement (t : Tree) : Except BuildError (Option Statement) :=
  if t.name = Rule.ifStatement then some <$> readIf t else readExpression t

/-! ### Functions -/

/-- The name of a function: the identifier in its descriptor, or else all of the descriptor. -/
def functionName (t : Tree) : Except BuildError Text :=
  if t.name = Rule.constructor then .ok constructorName
  else do
    let desc ← require t .noDescriptor (t.child? Rule.descriptor)
    pure (((desc.child? Rule.identifier).getD desc).text)

/-- The first visibility word among the modifiers. -/
def functionVisibility (t : Tree) : Text :=
  let words := ((t.child? Rule.modifiers).map fun m => m.kids.map Tree.text).getD []
  (words.find? (functionVisibilities.contains ·)).getD defaultVisibility

/-- The parameter at a node. -/
def readParameter (t : Tree) : Except BuildError Parameter := do
  let type ← require t .noParameterType (t.child? Rule.typeName)
  pure { type := type.text, name := ((t.child? Rule.identifier).map Tree.text).getD [] }

/-- The parameters in a list; none without a list. -/
def readParameters (list : Option Tree) : Except BuildError (List Parameter) :=
  match list with
  | some l => (l.children Rule.parameter).mapM readParameter
  | none => .ok []

/-- The statements of a block; none without a block. -/
def readBody (block : Option Tree) : Except BuildError (List Statement) :=
  match block with
  | some b => do
    let found ← (statementsAll b.kids).mapM readStatement
    pure (found.filterMap id)
  | none => .ok []

/-- The function that a node defines. -/
def readFunction (t : Tree) : Except BuildError Function := do
  let name ← functionName t
  let parameters ← readParameters (t.child? Rule.parameterList)
  let returns ← readParameters ((t.child? Rule.returns).bind (·.child? Rule.parameterList))
  let body ← readBody (t.child? Rule.block)
  pure {
    name := name
    visibility := functionVisibility t
    parameters := parameters
    returns := returns
    body := body }

/-! ### The contract -/

/-- A member of a contract. -/
inductive Member where
  | stateVariable (v : StateVariable)
  | definition (f : Function)

/-- The variable, if the member is one. -/
def Member.stateVariable? : Member → Option StateVariable
  | .stateVariable v => some v
  | .definition _ => none

/-- The function, if the member is one. -/
def Member.definition? : Member → Option Function
  | .stateVariable _ => none
  | .definition f => some f

/-- The member at a node that `members` lists. -/
def readMember (t : Tree) : Except BuildError Member :=
  if t.name = Rule.stateVariable then .stateVariable <$> readVariable t
  else .definition <$> readFunction t

/-- The contract with the given members; the last constructor counts. -/
def Contract.ofMembers (name : Text) (ms : List Member) : Contract :=
  let functions := ms.filterMap Member.definition?
  { name := name
    stateVariables := ms.filterMap Member.stateVariable?
    constructor := (functions.filter Function.isConstructor).getLast?
    functions := functions.filter fun f => !f.isConstructor }

/-- The contract of a definition. -/
def readContract (t : Tree) : Except BuildError Contract := do
  let ident ← require t .noContractName (t.child? Rule.identifier)
  let ms ← (membersAll t.kids).mapM readMember
  pure (Contract.ofMembers ident.text ms)

/-- The contract that a parse tree defines. -/
def Contract.build : Option Tree → Except BuildError Contract
  | none => .error ⟨"<nil>", "unknown location", .noTree⟩
  | some root =>
    match contracts root with
    | [] => .error ⟨root.name, root.location, .noContract⟩
    | [t] => readContract t
    | _ :: second :: _ => .error ⟨Rule.contractDefinition, second.location, .secondContract⟩

end ContractNet
