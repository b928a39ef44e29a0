import ContractNet.Syntax.Tree
import ContractNet.Json.Fields
import ContractNet.Text.Quoted

/-!
# Parse trees as JSON

A dump shows a node as an object: a rule with its name, source text, lines and children, or a
token with its text and lines.  Empty texts, unknown lines and missing children are left out.

* `Tree.toJson` is the dump of a tree;
* `Tree.read` reads a dump: it reads records (`DumpNode`) first, and then checks from the root on
  that each of them is a rule or a token (`DumpNode.toTree`).
-/

namespace ContractNet.Syntax

/-! ### Writing -/

mutual

/-- The dump of a tree. -/
def Tree.toJson : Tree → Json
  | .rule n source start stop ks =>
    if n.isEmpty then
      .record [("token", some (.string [])), ("start", Json.unlessZero start),
        ("end", Json.unlessZero stop)]
    else
      .record [("rule", some (.string n)), ("text", Json.unlessEmpty source),
        ("start", Json.unlessZero start), ("end", Json.unlessZero stop),
        ("children", Json.unlessNil (toJsonAll ks))]
  | .token t start stop =>
    .record [("token", some (.string t)), ("start", Json.unlessZero start),
      ("end", Json.unlessZero stop)]

/-- The dumps of trees. -/
def toJsonAll : List Tree → List Json
  | [] => []
  | t :: ts => Tree.toJson t :: toJsonAll ts

end

/-! ### Reading -/

/-- A node as it stands in a dump, before it is known to be a rule or a token. -/
structure DumpNode where
  rule : Text := []
  token : Option Text := none
  text : Text := []
  start : Int := 0
  stop : Int := 0
  /-- The children; null ones are absent. -/
  children : List (Option DumpNode) := []
  /-- Children of an earlier, longer list, over which the next list is read. -/
  spare : List (Option DumpNode) := []

namespace DumpNode

/-- The children with those behind the end. -/
def slots (n : DumpNode) : Json.Slots (Option DumpNode) := ⟨n.children, n.spare⟩

/-- Put a list of children in. -/
def setChildren (n : DumpNode) (s : Json.Slots (Option DumpNode)) : DumpNode :=
  { n with children := s.items, spare := s.spare }

/-- Read the field `name` of a node. -/
def inField {α : Type} (name : Text) (r : Except Json.TypeError α) : Except Json.TypeError α :=
  Json.inField "jsonNode" name r

/-- Read a member that is no list of children. -/
def readPlain (old : DumpNode) (key : Text) (j : Json) : Except Json.TypeError DumpNode :=
  if Json.keyMatches "rule" key then do
    pure { old with rule := ← inField "rule" (Json.readText old.rule j) }
  else if Json.keyMatches "token" key then do
    pure { old with token := ← inField "token" (Json.readOptText j) }
  else if Json.keyMatches "text" key then do
    pure { old with text := ← inField "text" (Json.readText old.text j) }
  else if Json.keyMatches "start" key then do
    pure { old with start := ← inField "start" (Json.readInt old.start j) }
  else if Json.keyMatches "end" key then do
    pure { old with stop := ← inField "end" (Json.readInt old.stop j) }
  else .ok old

mutual

/-- Read a node over an earlier one. -/
def read (old : DumpNode) : Json → Except Json.TypeError DumpNode
  | .object ms => readMembers old ms
  | .null => .ok old
  | j => .error ⟨j.kind, "syntax.jsonNode", [], []⟩

/-- Read the members of a node in order. -/
def readMembers (old : DumpNode) : List (Text × Json) → Except Json.TypeError DumpNode
  | [] => .ok old
  | m :: ms => do readMembers (← readMember old m) ms

/-- Read one member of a node. -/
def readMember (old : DumpNode) : Text × Json → Except Json.TypeError DumpNode
  | (key, j) =>
    if Json.keyMatches "children" key then inField "children" (readChildren old j)
    else readPlain old key j

/-- Read the children of a node. -/
def readChildren (old : DumpNode) : Json → Except Json.TypeError DumpNode
  | .array js => do
    let new ← readList old.slots.backing js
    pure (old.setChildren (old.slots.replace new))
  | .null => .ok (old.setChildren {})
  | j => .error ⟨j.kind, "[]*syntax.jsonNode", [], []⟩

/-- Read a list of children over those at the same places. -/
def readList (old : List (Option DumpNode)) :
    List Json → Except Json.TypeError (List (Option DumpNode))
  | [] => .ok []
  | .null :: js => do
    let ns ← readList old.tail js
    pure (none :: ns)
  | j :: js => do
    let n ← read (old.head?.join.getD {}) j
    let ns ← readList old.tail js
    pure (some n :: ns)

end

end DumpNode

/-- What is wrong with a node of a dump. -/
inductive NodeFault where
  | null
  | ruleAndToken (rule token : Text)
  | tokenWithChildren (token : Text)
  | neither

/-- A faulty node: the places of its ancestors and itself among their siblings, and its fault. -/
structure TreeFault where
  path : List Nat
  fault : NodeFault

/-- Wording of a fault. -/
def NodeFault.message : NodeFault → Text
  | null => "null node"
  | ruleAndToken r t => "node has both rule " ++ r.quoted ++ " and token " ++ t.quoted
  | tokenWithChildren t => "token " ++ t.quoted ++ " has children"
  | neither => "node has neither rule nor token"

/-- The step from a node to its `i`-th child. -/
def stepText (i : Nat) : Text := ".children[" ++ Text.decimal i ++ "]"

/-- The path to a node from the root `$`. -/
def pathText (path : List Nat) : Text := "$" ++ path.flatMap stepText

/-- Wording of a fault with its place. -/
def TreeFault.message (f : TreeFault) : Text := pathText f.path ++ ": " ++ f.fault.message

mutual

/-- The tree of a node at `path`. -/
def DumpNode.toTree (path : List Nat) : DumpNode → Except TreeFault Tree
  | ⟨rule, some t, _, start, stop, children, _⟩ =>
    if !rule.isEmpty then .error ⟨path, .ruleAndToken rule t⟩
    else if !children.isEmpty then .error ⟨path, .tokenWithChildren t⟩
    else .ok (.token t start stop)
  | ⟨rule, none, text, start, stop, children, _⟩ =>
    if rule.isEmpty then .error ⟨path, .neither⟩
    else do pure (.rule rule text start stop (← toTrees path 0 children))

/-- The trees of the children of the node at `path`, from the `i`-th on. -/
def toTrees (path : List Nat) (i : Nat) : List (Option DumpNode) → Except TreeFault (List Tree)
  | [] => .ok []
  | none :: _ => .error ⟨path ++ [i], .null⟩
  | some n :: ns => do
    let t ← DumpNode.toTree (path ++ [i]) n
    let ts ← toTrees path (i + 1) ns
    pure (t :: ts)

end

/-- Why a text is no dump of a tree. -/
inductive DumpError where
  /-- It is no JSON. -/
  | malformed (e : Json.SyntaxError)
  /-- A member has the wrong type. -/
  | type (e : Json.TypeError)
  /-- A node is no rule and no token. -/
  | tree (f : TreeFault)

/-- Wording of the errors. -/
def DumpError.message : DumpError → Text
  | malformed e => "invalid JSON: " ++ e.message
  | type e => "invalid JSON: " ++ e.message
  | tree f => f.message

/-- Read the dump of a tree. -/
def Tree.read (t : Text) : Except DumpError Tree :=
  match Json.parse t with
  | .error e => .error (.malformed e)
  | .ok j =>
    match DumpNode.read {} j with
    | .error e => .error (.type e)
    | .ok n => (n.toTree []).mapError .tree

end ContractNet.Syntax
