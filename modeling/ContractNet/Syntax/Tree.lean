import ContractNet.Text.Basic

/-!
# Parse trees

The tree that a parser of contract sources hands over.  A node is a rule of the grammar with its
children, or a token.  Only rule names, texts, lines and the order of children matter to what
follows.

A rule node whose name is empty counts as an empty token.
-/

namespace ContractNet.Syntax

/-- A parse tree.  Line 0 stands for an unknown line. -/
inductive Tree where
  /-- A rule node; a non-empty `source` is its text in the file. -/
  | rule (name source : Text) (start stop : Int) (kids : List Tree)
  | token (text : Text) (start stop : Int)
deriving Inhabited

namespace Tree

/-- The name of the rule; empty for a token. -/
def name : Tree → Text
  | rule n .. => n
  | token .. => []

/-- The children in the order of the source. -/
def kids : Tree → List Tree
  | rule _ _ _ _ ks => ks
  | token .. => []

/-- The node is a token. -/
def isToken (t : Tree) : Bool := t.name.isEmpty

mutual

/-- The source text of a node: that of a rule without one of its own is the text of its children,
without separators. -/
def text : Tree → Text
  | rule n source _ _ ks => if n.isEmpty then [] else if source.isEmpty then textAll ks else source
  | token t _ _ => t

/-- The texts of nodes one after the other. -/
def textAll : List Tree → Text
  | [] => []
  | t :: ts => text t ++ textAll ts

end

mutual

/-- The first line of a node: its own, or that of its first child. -/
def startLine : Tree → Int
  | rule _ _ start _ ks => if start = 0 then (startLineOfFirst ks).getD start else start
  | token _ start _ => start

/-- The first line of the first of some nodes. -/
def startLineOfFirst : List Tree → Option Int
  | [] => none
  | t :: _ => some (startLine t)

end

mutual

/-- The last line of a node: its own, or that of its last child, or its first line. -/
def endLine : Tree → Int
  | rule n source start stop ks =>
    if stop = 0 then (endLineOfLast ks).getD (startLine (rule n source start stop ks)) else stop
  | token _ start stop => if stop = 0 then start else stop

/-- The last line of the last of some nodes. -/
def endLineOfLast : List Tree → Option Int
  | [] => none
  | t :: ts => some ((endLineOfLast ts).getD (endLine t))

end

mutual

/-- The shape of a tree: a rule with its children in parentheses, a token as it is. -/
def shape : Tree → Text
  | rule n _ _ _ ks => if n.isEmpty then [] else "(" ++ n ++ shapeAll ks ++ ")"
  | token t _ _ => t

/-- The shapes of nodes, each after a space. -/
def shapeAll : List Tree → Text
  | [] => []
  | t :: ts => " " ++ shape t ++ shapeAll ts

end

mutual

/-- A node and all below it, parents first. -/
def nodes : Tree → List Tree
  | rule n source start stop ks => rule n source start stop ks :: nodesAll ks
  | token t start stop => [token t start stop]

/-- The nodes of several trees. -/
def nodesAll : List Tree → List Tree
  | [] => []
  | t :: ts => nodes t ++ nodesAll ts

end

/-- The first child with the given rule. -/
def child? (t : Tree) (rule : Text) : Option Tree := t.kids.find? (·.name = rule)

/-- The children with the given rule. -/
def children (t : Tree) (rule : Text) : List Tree := t.kids.filter (·.name = rule)

/-- The lines of a node for a message. -/
def location (t : Tree) : Text :=
  if t.startLine < t.endLine then
    "lines " ++ Text.integer t.startLine ++ "-" ++ Text.integer t.endLine
  else "line " ++ Text.integer t.startLine

end Tree

end ContractNet.Syntax
