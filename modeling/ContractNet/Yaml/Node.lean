import ContractNet.Yaml.Schema
import ContractNet.Yaml.Token

/-!
# Nodes of a YAML document

`Yaml.readDocument` reads the first document of a stream: a tree of scalars, sequences and
mappings, with a table of the nodes that carry an anchor.  An alias names its node by its number
in that table, so a node may hold an alias of itself.

Between two parts of the tree, `settle` brings up a fault that was noticed while looking for
comments; any other fault comes up where it is met.
-/

namespace ContractNet.Yaml

/-- A node of a document with the line on which it starts, counted from one, and its tag. -/
inductive Node where
  | scalar (line : Nat) (tag : Text) (style : ScalarStyle) (value : Text)
  | sequence (line : Nat) (tag : Text) (items : List Node)
  | mapping (line : Nat) (tag : Text) (entries : List (Node × Node))
  /-- An alias, the one with this number, of the node with the number `target` among those with an
  anchor. -/
  | reference (line : Nat) (name : Text) (number target : Nat)
deriving Inhabited

namespace Node

/-- The line on which the node starts. -/
def line : Node → Nat
  | scalar l _ _ _ => l
  | sequence l _ _ => l
  | mapping l _ _ => l
  | reference l _ _ _ => l

/-- The tag of the node; an alias has none. -/
def tag : Node → Text
  | scalar _ t _ _ => t
  | sequence _ t _ => t
  | mapping _ t _ => t
  | reference _ _ _ _ => []

/-- The text that tells nodes of one shape apart when they are keys. -/
def keyText : Node → Text
  | scalar _ _ _ v => v
  | reference _ n _ _ => n
  | _ => []

/-- The two nodes have the same shape. -/
def sameShape : Node → Node → Bool
  | scalar _ _ _ _, scalar _ _ _ _ => true
  | sequence _ _ _, sequence _ _ _ => true
  | mapping _ _ _, mapping _ _ _ => true
  | reference _ _ _ _, reference _ _ _ _ => true
  | _, _ => false

/-- A scalar that is left out. -/
def empty (line : Nat) : Node := scalar (line + 1) (Kind.tag .null) .plain []

end Node

/-- A document. -/
structure Document where
  root : Node
  /-- The nodes that carry an anchor, in the order of their anchors. -/
  anchored : Array Node
  /-- No fewer than the nodes on a way through the tree that follows no alias twice. -/
  bound : Nat

/-- The node with a number among those with an anchor. -/
def Document.target (d : Document) (n : Nat) : Node := d.anchored.getD n (.empty 0)

/-- The node, or the one that it is an alias of. -/
def Document.follow (d : Document) : Node → Node
  | .reference _ _ _ n => d.target n
  | n => n

/-- What a document has said so far. -/
structure Composing where
  /-- The numbers of the anchors by their names. -/
  anchors : Std.HashMap Text Nat := {}
  /-- The nodes of the anchors; those that are not complete are empty. -/
  anchored : Array Node := #[]
  /-- The number of aliases. -/
  references : Nat := 0
  /-- What the handles of tags stand for. -/
  handles : List (Text × Text) := []

/-- A step of composing; it fails when the tokens make no document. -/
abbrev ComposeM := StateT Composing ScanM

namespace ComposeM

/-- The next token. -/
def peek : ComposeM Token := ScanM.peek

/-- Move on to the next token. -/
def advance : ComposeM Unit := ScanM.advance

/-- Forget the comments above a part that is complete. -/
def dropComments : ComposeM Unit := ScanM.dropComments

/-- Bring up a fault that has been kept. -/
def settle : ComposeM Unit := ScanM.settle

/-- Fail at the next token, in something that starts on line `start`. -/
def fail {α : Type} (p : Problem) (start : Nat) : ComposeM α := do
  throw (.parsing p start (← peek).line)

/-- Take the next token if it is of the given kind. -/
def accept (k : TokenKind) : ComposeM Bool := do
  if (← peek).kind = k then
    advance
    pure true
  else pure false

/-- The next token is of one of the given kinds. -/
def nextIs (ks : List TokenKind) : ComposeM Bool := do
  pure (ks.contains (← peek).kind)

/-- Take the comma that stands between two entries in brackets, which `close` ends; tell whether
none is missing. -/
def separated (first : Bool) (close : TokenKind) : ComposeM Bool := do
  if first || (← peek).kind = close then pure true else accept .flowEntry

/-- A scalar that is left out on a line. -/
def absent (line : Nat) : ComposeM Node := do
  settle
  pure (.empty line)

/-! ### Properties -/

/-- What may stand before a node. -/
structure Properties where
  anchor : Option Text := none
  /-- The tag, and the line on which it stands. -/
  tag : Option (Tag × Nat) := none
  /-- The line on which the node starts with its properties. -/
  line : Nat
  /-- The tag in full; empty if there is none. -/
  fullTag : Text := []

namespace Properties

/-- There is an anchor or a tag. -/
def any (p : Properties) : Bool := p.anchor.isSome || p.tag.isSome

/-- The node has no tag of its own. -/
def untagged (p : Properties) : Bool := p.fullTag.isEmpty || p.fullTag = Text.ofString "!"

/-- The tag of a collection. -/
def collectionTag (p : Properties) (usual : Text) : Text :=
  if p.untagged then usual else shortTag p.fullTag

/-- The tag of a scalar: its own, or the one that its style and text give it. -/
def scalarTag (p : Properties) (style : ScalarStyle) (v : Text) : Text :=
  if p.untagged then
    if style ≠ .plain then Kind.tag .string
    else if v = Text.ofString "<<" then "!!merge"
    else (kindOf none v).tag
  else shortTag p.fullTag

end Properties

/-- Take an anchor, if one comes next. -/
def anchor (p : Properties) : ComposeM Properties := do
  match (← peek).kind with
  | .anchor name =>
    advance
    pure { p with anchor := some name }
  | _ => pure p

/-- Take a tag, if one comes next. -/
def tag (p : Properties) : ComposeM Properties := do
  let t ← peek
  match t.kind with
  | .tag tag =>
    advance
    pure { p with tag := some (tag, t.line) }
  | _ => pure p

/-- The full form of a tag on a line, of a node that starts on line `start`. -/
def fullTag (start line : Nat) (t : Tag) : ComposeM Text := do
  if t.handle.isEmpty then pure t.suffix
  else match (← get).handles.lookup t.handle with
    | some stem => pure (stem ++ t.suffix)
    | none => throw (.parsing .undefinedHandle start line)

/-- Take an anchor and a tag in any order.  What the tag means is asked when the token after them is
known. -/
def properties : ComposeM Properties := do
  let first ← peek
  let p ← match first.kind with
    | .anchor _ => tag (← anchor { line := first.line })
    | .tag _ => anchor (← tag { line := first.line })
    | _ => pure { line := first.line }
  discard peek
  match p.tag with
  | some (t, line) => pure { p with fullTag := ← fullTag p.line line t }
  | none => pure p

/-- Give an anchor its number before its node is read. -/
def enter (p : Properties) : ComposeM (Option Nat) := do
  settle
  match p.anchor with
  | none => pure none
  | some name =>
    let n := (← get).anchored.size
    modify fun s =>
      { s with anchors := s.anchors.insert name n, anchored := s.anchored.push (.empty 0) }
    pure (some n)

/-- Note the node of an anchor. -/
def leave (n : Option Nat) (v : Node) : ComposeM Node := do
  if let some n := n then
    modify fun s => { s with anchored := s.anchored.setIfInBounds n v }
  pure v

/-! ### Nodes -/

/-- An alias on a line. -/
def reference (line : Nat) (name : Text) : ComposeM Node := do
  settle
  match (← get).anchors[name]? with
  | none => throw ⟨.unknownAnchor name, 0⟩
  | some target =>
    let number := (← get).references
    modify fun s => { s with references := number + 1 }
    pure (.reference (line + 1) name number target)

/-- A scalar with its properties. -/
def scalar (p : Properties) (style : ScalarStyle) (v : Text) : ComposeM Node := do
  let n ← enter p
  leave n (.scalar (p.line + 1) (p.scalarTag style v) style v)

/-- A node of which only the properties are there. -/
def bare (p : Properties) : ComposeM Node :=
  if p.any then scalar p .plain [] else fail .noNodeContent p.line

/-- A sequence with its properties. -/
def sequence (p : Properties) (items : ComposeM (List Node)) : ComposeM Node := do
  let n ← enter p
  leave n (.sequence (p.line + 1) (p.collectionTag "!!seq") (← items))

/-- A mapping with its properties. -/
def mapping (p : Properties) (entries : ComposeM (List (Node × Node))) : ComposeM Node := do
  let n ← enter p
  leave n (.mapping (p.line + 1) (p.collectionTag "!!map") (← entries))

/-- Tokens after which a value or key of a block mapping is left out. -/
def blockAbsent : List TokenKind := [.key, .value, .blockEnd]

mutual

/-- A node.  `block` allows block collections, `flat` a sequence that is not indented. -/
def node (fuel : Nat) (block flat : Bool) : ComposeM Node := do
  match fuel with
  | 0 => fail .noNodeContent 0
  | fuel + 1 =>
    let first ← peek
    match first.kind with
    | .reference name =>
      advance
      dropComments
      reference first.line name
    | _ =>
      let p ← properties
      let t ← peek
      match t.kind with
      | .scalar v style =>
        advance
        dropComments
        scalar p style v
      | .flowSequence =>
        dropComments
        sequence p do
          advance
          flowItems fuel t.line true []
      | .flowMapping =>
        dropComments
        mapping p do
          advance
          flowEntries fuel t.line true []
      | .blockEntry => if flat then sequence p (flatItems fuel []) else bare p
      | .blockSequence =>
        if block then
          sequence p do
            advance
            blockItems fuel t.line []
        else bare p
      | .blockMapping =>
        if block then
          mapping p do
            advance
            blockEntries fuel t.line []
        else bare p
      | _ => bare p

/-- The items of an indented block sequence that starts on line `start`, after those in `acc`. -/
def blockItems (fuel start : Nat) (acc : List Node) : ComposeM (List Node) := do
  match fuel with
  | 0 => fail .noNodeContent 0
  | fuel + 1 =>
    let t ← peek
    if t.kind = .blockEntry then
      ScanM.passDash
      let item ← if ← nextIs [.blockEntry, .blockEnd] then absent t.line else node fuel true false
      blockItems fuel start (item :: acc)
    else if ← accept .blockEnd then
      settle
      pure acc.reverse
    else fail .noSequenceEntry start

/-- The items of a sequence that stands at the column of its mapping. -/
def flatItems (fuel : Nat) (acc : List Node) : ComposeM (List Node) := do
  match fuel with
  | 0 => fail .noNodeContent 0
  | fuel + 1 =>
    let t ← peek
    if t.kind = .blockEntry then
      ScanM.passDash
      let item ←
        if ← nextIs [.blockEntry, .key, .value, .blockEnd] then absent t.line
        else node fuel true false
      flatItems fuel (item :: acc)
    else
      settle
      pure acc.reverse

/-- The entries of a block mapping that starts on line `start`, after those in `acc`. -/
def blockEntries (fuel start : Nat) (acc : List (Node × Node)) :
    ComposeM (List (Node × Node)) := do
  match fuel with
  | 0 => fail .noNodeContent 0
  | fuel + 1 =>
    let t ← peek
    if ← accept .key then
      let key ← if ← nextIs blockAbsent then absent t.line else node fuel true true
      let v ← peek
      let value ←
        if !(← accept .value) || (← nextIs blockAbsent) then absent v.line
        else node fuel true true
      blockEntries fuel start ((key, value) :: acc)
    else if ← accept .blockEnd then
      dropComments
      settle
      pure acc.reverse
    else fail .noMappingKey start

/-- The items between square brackets, of which the first stands on line `start`; a key there
stands for a mapping of one entry. -/
def flowItems (fuel start : Nat) (first : Bool) (acc : List Node) : ComposeM (List Node) := do
  match fuel with
  | 0 => fail .noNodeContent 0
  | fuel + 1 =>
    if !(← separated first .flowSequenceEnd) then fail .noSequenceComma start
    else
      let t ← peek
      if ← accept .flowSequenceEnd then
        dropComments
        settle
        pure acc.reverse
      else if ← accept .key then
        settle
        let entry ← flowPair fuel
        discard peek
        settle
        flowItems fuel start false (.mapping (t.line + 1) "!!map" [entry] :: acc)
      else
        let item ← node fuel false false
        flowItems fuel start false (item :: acc)

/-- The entry of a mapping between square brackets. -/
def flowPair (fuel : Nat) : ComposeM (Node × Node) := do
  match fuel with
  | 0 => fail .noNodeContent 0
  | fuel + 1 =>
    let k ← peek
    let key ←
      if ← nextIs [.value, .flowEntry, .flowSequenceEnd] then
        advance
        absent k.line
      else node fuel false false
    let v ← peek
    let value ←
      if !(← accept .value) || (← nextIs [.flowEntry, .flowSequenceEnd]) then absent v.line
      else node fuel false false
    pure (key, value)

/-- The entries between braces, of which the first stands on line `start`. -/
def flowEntries (fuel start : Nat) (first : Bool) (acc : List (Node × Node)) :
    ComposeM (List (Node × Node)) := do
  match fuel with
  | 0 => fail .noNodeContent 0
  | fuel + 1 =>
    if !(← separated first .flowMappingEnd) then fail .noMappingComma start
    else if ← accept .flowMappingEnd then
      dropComments
      settle
      pure acc.reverse
    else if ← accept .key then
      let key ←
        if ← nextIs [.value, .flowEntry, .flowMappingEnd] then absent (← peek).line
        else node fuel false false
      let value ←
        if !(← accept .value) || (← nextIs [.flowEntry, .flowMappingEnd]) then
          absent (← peek).line
        else node fuel false false
      flowEntries fuel start false ((key, value) :: acc)
    else
      let key ← node fuel false false
      let value ← absent (← peek).line
      flowEntries fuel start false ((key, value) :: acc)

end

/-! ### Documents -/

/-- Take the directives before a document.  Only version 1.1 is known, and no directive may be
repeated. -/
def directives (versionSeen : Bool) : Nat → ComposeM Unit
  | 0 => fail .noDocumentStart 0
  | fuel + 1 => do
    match (← peek).kind with
    | .directive (.version major minor) =>
      if versionSeen then fail .repeatedVersion 0
      else if major ≠ 1 || minor ≠ 1 then fail .otherVersion 0
      else
        advance
        directives true fuel
    | .directive (.handle name stem) =>
      if ((← get).handles.lookup name).isSome then fail .repeatedHandle 0
      else
        modify fun s => { s with handles := (name, stem) :: s.handles }
        advance
        directives versionSeen fuel
    | _ => pure ()

/-- The handles that stand for something in every document. -/
def usualHandles : List (Text × Text) := [("!", "!"), ("!!", longStem)]

/-- The root of a document after its start mark. -/
def content (fuel : Nat) : ComposeM Node := do
  let t ← peek
  match t.kind with
  | .directive _ | .documentStart | .documentEnd | .streamEnd => absent t.line
  | _ => node fuel true false

/-- The first document; nothing if the stream holds none. -/
def document (fuel : Nat) : ComposeM (Option Node) := do
  discard peek
  advance
  settle
  match (← peek).kind with
  | .streamEnd =>
    settle
    pure none
  | .directive _ | .documentStart =>
    directives false fuel
    modify fun s => { s with handles := s.handles ++ usualHandles }
    if !(← accept .documentStart) then fail .noDocumentStart 0
    else
      settle
      finish (← content fuel)
  | _ =>
    modify fun s => { s with handles := usualHandles }
    ScanM.dropApart
    settle
    finish (← node fuel true false)
where
  /-- The end of the document is where the next token is known. -/
  finish (root : Node) : ComposeM (Option Node) := do
    discard peek
    settle
    pure (some root)

end ComposeM

/-- The first document of a stream, if it holds one. -/
def readDocument (t : Text) : Except Fault (Option Document) :=
  let fuel := 8 * t.length + 16
  match ((ComposeM.document fuel).run {}).run (.ofText t) with
  | .ok (root, s) _ => .ok (root.map fun r => ⟨r, s.anchored, fuel * (s.references + 1)⟩)
  | .error f _ => .error f

end ContractNet.Yaml
