import ContractNet.Text.Base64
import ContractNet.Text.Quoted
import ContractNet.Yaml.Node

/-!
# Records in YAML documents

A record has named fields, and a mapping of a document sets some of them: `Record.read` goes
through the mapping in order, sets the fields that it names, and notes what does not fit.  Fields
that the mapping leaves out, or sets to null, stay as they are.

The key `<<` merges other mappings in: their fields count after those of the mapping itself, and
none of them counts twice.

An alias may not lead back to itself, and a document may not consist of aliases nearly alone.
-/

namespace ContractNet.Yaml

/-- What does not fit in a mapping. -/
inductive TypeFault where
  /-- A value of another kind than its target. -/
  | mismatch (line : Nat) (tag value target : Text)
  /-- A key that names no field. -/
  | unknownField (line : Nat) (name record : Text)
  /-- A key that stands twice in its mapping. -/
  | repeatedKey (line : Nat) (key : Text) (first : Nat)
  /-- Another spelling of a key whose field is set already. -/
  | repeatedField (line : Nat) (name record : Text)
deriving DecidableEq

/-- The value of a mismatch as it is shown: a long one is cut, and that of a collection is not
marked as a value. -/
def shownValue (tag value : Text) : Text :=
  if tag = Text.ofString "!!seq" || tag = Text.ofString "!!map" then value
  else if 10 < value.length then " `" ++ value.take 7 ++ "...`"
  else " `" ++ value ++ "`"

/-- Wording of the faults. -/
def TypeFault.message : TypeFault → Text
  | mismatch l tag value target =>
    "line " ++ Text.decimal l ++ ": cannot unmarshal " ++ tag ++ shownValue tag value ++
      " into " ++ target
  | unknownField l name record =>
    "line " ++ Text.decimal l ++ ": field " ++ name ++ " not found in type " ++ record
  | repeatedKey l key first =>
    "line " ++ Text.decimal l ++ ": mapping key " ++ Text.quoted key ++
      " already defined at line " ++
      Text.decimal first
  | repeatedField l name record =>
    "line " ++ Text.decimal l ++ ": field " ++ name ++ " already set in type " ++ record

/-! ### The meaning of scalars -/

/-- What a scalar means. -/
inductive Meaning where
  | null
  | bool (b : Bool)
  | text (t : Text)
  /-- A number or a point in time, by its spelling. -/
  | other (kind : Kind) (spelling : Text)
deriving DecidableEq

/-- The meaning of a text of a kind. -/
def Meaning.ofKind (value : Text) : Kind → Meaning
  | .null => .null
  | .bool => .bool (trueWords.contains value)
  | .string => .text value
  | k => .other k value

/-- The meaning of a scalar with a tag, if its text fits its tag. -/
def meaning (tag value : Text) : Except Fault Meaning :=
  if tag = Kind.tag .string then .ok (.text value)
  else if tag = Text.ofString "!!binary" then
    match Text.base64Decode? value with
    | some t => .ok (.text t)
    | none => .error ⟨.badBase64, 0⟩
  else match Kind.ofTag? tag with
    | none => .ok (.text value)
    | some k =>
      match resolve (some k) value with
      | some k => .ok (.ofKind value k)
      | none => .error ⟨.otherKind (kindOf (some k) value).tag value tag, 0⟩

/-! ### Values -/

/-- What a node means where nothing is known about its kind. -/
inductive Value where
  | scalar (m : Meaning)
  | sequence (items : List Value)
  /-- A mapping; `textKeys` tells that all its keys are texts. -/
  | mapping (textKeys : Bool) (entries : List (Value × Value))

namespace Value

/-- The type of the collections of one kind. -/
def typeName : Value → Text
  | scalar _ => []
  | sequence _ => "[]interface {}"
  | mapping true _ => "map[string]interface {}"
  | mapping false _ => "map[interface {}]interface {}"

/-- A scalar as it is shown in messages. -/
def shownScalar : Meaning → Text
  | .null => "interface {}(nil)"
  | .bool b => if b then "true" else "false"
  | .text t => Text.quoted t
  | .other _ spelling => spelling

mutual

/-- A value as it is shown in messages. -/
def shown : Value → Text
  | scalar m => shownScalar m
  | sequence items => "[]interface {}\x7b" ++ Text.join ", " (shownItems items) ++ "\x7d"
  | mapping textKeys entries =>
    (mapping textKeys []).typeName ++ "\x7b" ++
      Text.join ", " ((shownEntries entries).mergeSort Text.le) ++ "\x7d"

/-- The items of a sequence as they are shown. -/
def shownItems : List Value → List Text
  | [] => []
  | v :: vs => shown v :: shownItems vs

/-- The entries of a mapping as they are shown. -/
def shownEntries : List (Value × Value) → List Text
  | [] => []
  | (k, v) :: es => (shown k ++ ":" ++ shown v) :: shownEntries es

end

/-- The meaning of a key that may not stand beside a merge unless it is a scalar. -/
def asKey : Value → Except Fault Meaning
  | scalar m => .ok m
  | c => .error ⟨.keyBesideMerge c.typeName, 0⟩

/-- The value can be a key. -/
def checkKey : Value → Except Fault Unit
  | scalar _ => .ok ()
  | c => .error ⟨.collectionKey c.shown, 0⟩

end Value

/-! ### Visiting nodes -/

/-- What has been met while a document is read. -/
structure Reading where
  /-- The number of visits to nodes; the document itself is the first. -/
  visits : Nat := 1
  /-- The number of visits in the course of which an alias was followed. -/
  indirect : Nat := 0
  /-- The aliases that are being followed, by their numbers. -/
  following : List Nat := []
  /-- The keys that count no more, when the mapping is merged into another one. -/
  taken : Option (List Meaning) := none
  /-- What does not fit, last first. -/
  faults : List TypeFault := []

/-- A step of reading. -/
abbrev ReadM := StateT Reading (Except Fault)

/-- Too many of the visits are indirect.  In small documents the limit is 99 in 100; from 400,000
visits on it falls evenly to 10 in 100 at 4,000,000. -/
def Reading.tooIndirect (r : Reading) : Bool :=
  let range := 3600000
  let excess := min (r.visits - 400000) range
  100 < r.indirect && 1000 < r.visits &&
    r.visits * (99 * range - 89 * excess) < 100 * range * r.indirect

namespace ReadM

/-- Note what does not fit. -/
def note (fs : List TypeFault) : ReadM Unit :=
  modify fun r => { r with faults := fs.reverse ++ r.faults }

/-- Count a visit. -/
def count : ReadM Unit := do
  modify fun r =>
    { r with
      visits := r.visits + 1
      indirect := if r.following.isEmpty then r.indirect else r.indirect + 1 }
  if (← get).tooIndirect then throw ⟨.tooManyAliases, 0⟩

/-- Visit a node: act on it, or on the one that it is an alias of. -/
def visit {α : Type} (d : Document) (n : Node) (act : Node → ReadM α) : ReadM α := do
  count
  match n with
  | .reference _ name number target =>
    if (← get).following.contains number then throw ⟨.cyclicAnchor name, 0⟩
    else
      modify fun r => { r with following := number :: r.following }
      count
      let a ← act (d.target target)
      modify fun r => { r with following := r.following.tail }
      pure a
  | n => act n

end ReadM

open ReadM

/-- The keys that stand twice in a mapping. -/
def repeatedKeys : List Node → List TypeFault
  | [] => []
  | k :: ks =>
    (ks.filter fun k' => k.sameShape k' && k.keyText = k'.keyText).map (fun k' =>
      .repeatedKey k'.line k'.keyText k.line) ++ repeatedKeys ks

/-- A collection where a single value is expected. -/
def collectionFaults (target : Text) : Node → List TypeFault
  | .sequence l tag _ => [.mismatch l tag [] target]
  | .mapping l tag entries =>
    let repeated := repeatedKeys (entries.map Prod.fst)
    if repeated.isEmpty then [.mismatch l tag [] target] else repeated
  | _ => []

/-- The key that merges mappings in. -/
def isMergeKey : Node → Bool
  | .scalar _ tag _ value => value = Text.ofString "<<" && tag = Text.ofString "!!merge"
  | _ => false

namespace Document

variable (d : Document)

/-- Read a text: a scalar keeps its spelling. -/
def text (n : Node) : ReadM (Option Text) :=
  visit d n fun
  | .scalar _ tag _ value => do
    match ← meaning tag value with
    | .null => pure none
    | .text t => pure (some t)
    | _ => pure (some value)
  | c => do
    note (collectionFaults "string" c)
    pure none

/-- The truth value that a text stands for where one is expected: the words of older rules count
there. -/
def boolWord? (t : Text) : Option Bool :=
  if oldTrueWords.contains t then some true
  else if oldFalseWords.contains t then some false
  else none

/-- The truth value that a scalar means where one is expected. -/
def asBool? : Meaning → Option Bool
  | .bool b => some b
  | .text t => boolWord? t
  | _ => none

/-- Read a truth value. -/
def bool (n : Node) : ReadM (Option Bool) :=
  visit d n fun
  | .scalar l tag _ value => do
    let m ← meaning tag value
    if m ≠ .null && (asBool? m).isNone then note [.mismatch l tag value "bool"]
    pure (asBool? m)
  | c => do
    note (collectionFaults "bool" c)
    pure none

/-- By its tag, the node is a text or a merge when it is a key. -/
def isTextKey (k : Node) : Bool :=
  let tag := (d.follow k).tag
  tag = Kind.tag .string || tag = Text.ofString "!!merge"

/-- Merge mappings into something that has been read from entries of which `m` is the value of the
merge; `read` reads a node on its own and `into` reads a mapping over the result.  The keys of the
entries count no more in what is merged. -/
def merge {β : Type} (read : Node → ReadM (Option Value)) (into : β → Node → ReadM β)
    (entries : List (Node × Node)) (m : Node) (result : β) : ReadM β := do
  let isOuter := (← get).taken.isNone
  if isOuter then
    modify fun r => { r with taken := some [] }
    for (k, _) in entries do
      if let some v ← read k then
        let key ← v.asKey
        modify fun r => { r with taken := r.taken.map (key :: ·) }
  let result ← match m with
    | .sequence _ _ items => items.foldlM source result
    | m => source result m
  if isOuter then modify fun r => { r with taken := none }
  pure result
where
  /-- Merge one mapping. -/
  source (result : β) (n : Node) : ReadM β :=
    match d.follow n with
    | .mapping _ _ _ => into result n
    | _ => throw ⟨.badMerge, 0⟩

mutual

/-- Read a node as what it means by itself; nothing if its keys are repeated. -/
def value : Nat → Node → ReadM (Option Value)
  | 0, n => throw ⟨.cyclicAnchor n.keyText, 0⟩
  | fuel + 1, n =>
    visit d n fun
    | .scalar _ tag _ v => do pure (some (.scalar (← meaning tag v)))
    | .sequence _ _ items => do
      let vs ← items.mapM fun i => value fuel i
      pure (some (.sequence (vs.filterMap id)))
    | .mapping _ _ entries => do
      let textKeys := entries.all fun (k, _) => d.isTextKey k
      let es ← valueEntries fuel textKeys entries []
      pure (es.map (.mapping textKeys ·))
    | .reference _ _ _ _ => pure none

/-- Read the entries of a mapping after others. -/
def valueEntries (fuel : Nat) (textKeys : Bool) (entries : List (Node × Node))
    (before : List (Value × Value)) : ReadM (Option (List (Value × Value))) := do
  match fuel with
  | 0 => pure none
  | fuel + 1 =>
    let repeated := repeatedKeys (entries.map Prod.fst)
    if !repeated.isEmpty then
      note repeated
      pure none
    else
      let taken := (← get).taken
      modify fun r => { r with taken := none }
      let (es, taken) ← entries.foldlM (fun (es, taken) (k, v) => do
        if isMergeKey k then pure (es, taken)
        else
          let key ← if textKeys then (Option.map fun t => .scalar (.text t)) <$> d.text k
            else value fuel k
          match key with
          | none => pure (es, taken)
          | some key =>
            let isTaken ← match taken with
              | some ks => do pure (ks.contains (← key.asKey))
              | none => pure false
            if isTaken then pure (es, taken)
            else
              let taken ← taken.mapM fun ks => do pure ((← key.asKey) :: ks)
              key.checkKey
              match ← value fuel v with
              | some v => pure ((key, v) :: es, taken)
              | none => pure (es, taken)) (before, taken)
      modify fun r => { r with taken := taken }
      match (entries.filter fun (k, _) => isMergeKey k).getLast? with
      | none => pure (some es)
      | some (_, m) =>
        let into (es : List (Value × Value)) (n : Node) : ReadM (List (Value × Value)) :=
          visit d n fun
          | .mapping _ _ entries => do
            pure ((← valueEntries fuel textKeys entries es).getD es)
          | _ => pure es
        some <$> d.merge (value fuel) into entries m es

end

end Document

/-! ### Records -/

/-- A named part of a `σ` that a node can set. -/
structure Field (σ : Type) where
  name : Text
  read : Document → Node → σ → ReadM σ

/-- The fields of a `σ`. -/
structure Record (σ : Type) where
  typeName : Text
  fields : List (Field σ)

/-- How far a mapping has been read. -/
structure Progress (σ : Type) where
  result : σ
  /-- The fields that this mapping has set. -/
  done : List Text := []
  /-- The keys that count no more, when this mapping is merged into another one. -/
  taken : Option (List Meaning) := none
  /-- The mappings to merge in. -/
  merge : Option Node := none

namespace Record

variable {σ : Type} (r : Record σ) (d : Document)

/-- Set the field that a key names. -/
def setField (p : Progress σ) (line : Nat) (name : Text) (v : Node) : ReadM (Progress σ) := do
  match r.fields.find? fun f => f.name = name with
  | none =>
    note [.unknownField line name r.typeName]
    pure p
  | some f =>
    if p.done.contains name then
      note [.repeatedField line name r.typeName]
      pure p
    else pure { p with result := ← f.read d v p.result, done := name :: p.done }

/-- Read an entry of a mapping. -/
def readEntry (p : Progress σ) (e : Node × Node) : ReadM (Progress σ) := do
  if isMergeKey e.1 then pure { p with merge := some e.2 }
  else match ← d.text e.1 with
    | none => pure p
    | some name =>
      if p.taken.any (·.contains (.text name)) then pure p
      else r.setField d { p with taken := p.taken.map (.text name :: ·) } e.1.line name e.2

/-- Set fields from a node; `fuel` bounds how deep mappings are merged into one another. -/
def readFrom : Nat → σ → Node → ReadM σ
  | 0, _, n => throw ⟨.cyclicAnchor n.keyText, 0⟩
  | fuel + 1, v, n =>
    visit d n fun
    | .scalar l tag _ value => do
      if (← meaning tag value) ≠ .null then note [.mismatch l tag value r.typeName]
      pure v
    | .mapping _ _ entries => do
      let repeated := repeatedKeys (entries.map Prod.fst)
      if !repeated.isEmpty then
        note repeated
        pure v
      else
        let taken := (← get).taken
        modify fun s => { s with taken := none }
        let p ← entries.foldlM (r.readEntry d) { result := v, taken := taken }
        modify fun s => { s with taken := p.taken }
        match p.merge with
        | none => pure p.result
        | some m => d.merge (d.value d.bound) (readFrom fuel) entries m p.result
    | c => do
      note (collectionFaults r.typeName c)
      pure v

/-- Set fields from a node. -/
def read (n : Node) (v : σ) : ReadM σ := r.readFrom d d.bound v n

end Record

namespace Field

variable {σ : Type}

/-- A field that holds a text. -/
def ofText (name : Text) (set : σ → Text → σ) : Field σ where
  name := name
  read d n v := do pure ((← d.text n).elim v (set v))

/-- A field that holds a truth value. -/
def ofBool (name : Text) (set : σ → Bool → σ) : Field σ where
  name := name
  read d n v := do pure ((← d.bool n).elim v (set v))

/-- A field that holds a record. -/
def ofRecord {τ : Type} (name : Text) (r : Record τ) (get : σ → τ) (set : σ → τ → σ) : Field σ where
  name := name
  read d n v := do pure (set v (← r.read d n (get v)))

end Field

/-- Why a record cannot be read from a stream. -/
inductive RecordError where
  /-- The stream is faulty, or a value cannot be what its tag says. -/
  | malformed (f : Fault)
  | types (faults : List TypeFault)
deriving DecidableEq

/-- Wording of what does not fit. -/
def RecordError.message : RecordError → Text
  | malformed f => f.message
  | types fs => "yaml: unmarshal errors:" ++ (fs.map fun f => ("\n  " : Text) ++ f.message).flatten

/-- Read a record over a value from the first document of a stream. -/
def Record.ofText {σ : Type} (r : Record σ) (t : Text) (v : σ) : Except RecordError σ :=
  match readDocument t with
  | .error f => .error (.malformed f)
  | .ok none => .ok v
  | .ok (some d) =>
    match (r.read d d.root v).run {} with
    | .error f => .error (.malformed f)
    | .ok (v, s) => if s.faults.isEmpty then .ok v else .error (.types s.faults.reverse)

end ContractNet.Yaml
