import ContractNet.Contract.Basic
import ContractNet.Json.Basic

/-!
# Contracts as JSON

The members stand in a fixed order, and members that hold an empty text, no number or no list are
left out where they are optional.  Statements are marked with their kind.
-/

namespace ContractNet

/-- A list, or `empty` where there is nothing to list. -/
def listJson (empty : Json) (items : List Json) : Json :=
  if items.isEmpty then empty else .array items

/-- A variable as JSON. -/
def StateVariable.toJson (v : StateVariable) : Json :=
  .record [("name", some (.string v.name)), ("type", some (.string v.type)),
    ("initialValue", Json.unlessEmpty v.initial), ("indexType", Json.unlessEmpty v.index),
    ("visibility", some (.string v.visibility))]

/-- A parameter as JSON. -/
def Parameter.toJson (p : Parameter) : Json :=
  .record [("type", some (.string p.type)), ("name", Json.unlessEmpty p.name)]

/-- The parts of a statement as JSON. -/
def Statement.partsJson : Statement → Json
  | operation o =>
    .record [("targetVariable", some (.string o.target)),
      ("expression", some (.string o.expression)),
      ("sourceVariables", Json.unlessNil (o.sources.map .string)),
      ("operator", some (.string o.operator))]
  | call c =>
    .record [("functionName", some (.string c.name)),
      ("arguments", some (match c.arguments with
        | some as => .array (as.map .string)
        | none => .null)),
      ("sourceLine", some (.int c.line))]
  | conditional c =>
    .record [("kind", some (.string c.kind)), ("condition", some (.string c.condition)),
      ("startLine", some (.int c.startLine)), ("endLine", Json.unlessZero c.endLine)]
  | unknown => .null

/-- A statement as JSON, marked with its kind. -/
def Statement.toJson (s : Statement) : Json :=
  .object [("type", .string s.typeName), ("statement", s.partsJson)]

/-- A function as JSON. -/
def Function.toJson (empty : Json) (f : Function) : Json :=
  .object [("name", .string f.name), ("visibility", .string f.visibility),
    ("parameters", listJson empty (f.parameters.map Parameter.toJson)),
    ("returnParameters", listJson empty (f.returns.map Parameter.toJson)),
    ("body", .array (f.body.map Statement.toJson))]

/-- A contract as JSON.  `empty` stands for a list without entries: an empty array where the list
is known to have none, null where nobody said so. -/
def Contract.toJson (empty : Json) (c : Contract) : Json :=
  .record [("name", some (.string c.name)),
    ("stateVariables", some (listJson empty (c.stateVariables.map StateVariable.toJson))),
    ("functions", some (listJson empty (c.functions.map (Function.toJson empty)))),
    ("constructor", c.constructor.map (Function.toJson empty))]

end ContractNet
