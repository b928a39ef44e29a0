import ContractNet.Json.Reader

/-!
# Reading records from JSON

A record is read from an object member by member, in order: a member belongs to the field whose
name it spells, small and capital letters apart, members that belong to no field are passed over,
and a later member for the same field is read over what an earlier one left.  A null leaves a
field as it is.

`Slots` is the list field that goes with this rule: reading a list over another reuses the
elements that stood at the same places, also those beyond the end of a list that was read in
between.
-/

namespace ContractNet.Json

/-- A value has the wrong type for its field. -/
structure TypeError where
  /-- What stands in the document. -/
  found : Text
  /-- The type of the field, or of the whole document. -/
  wanted : Text
  /-- The record that has the field; empty if the whole document is wrong. -/
  record : Text := []
  /-- The fields that lead to the value, the outermost first. -/
  path : List Text := []
deriving DecidableEq

/-- The error seen from the record around its place: it arose in the field `name` of `record`. -/
def TypeError.within (record name : Text) (e : TypeError) : TypeError :=
  { e with record := if e.path.isEmpty then record else e.record, path := name :: e.path }

/-- The place of a type error: the whole document, or a field of a record. -/
def TypeError.place (e : TypeError) : Text :=
  if e.path.isEmpty then "Go value"
  else "Go struct field " ++ e.record ++ "." ++ Text.join "." e.path

/-- Wording of a type error. -/
def TypeError.message (e : TypeError) : Text :=
  "json: cannot unmarshal " ++ e.found ++ " into " ++ e.place ++ " of type " ++ e.wanted

/-- The kind of a value, as errors name it. -/
def kind : Json → Text
  | null => "null"
  | bool _ => "bool"
  | number _ => "number"
  | string _ => "string"
  | array _ => "array"
  | object _ => "object"

/-- Read a field named `name` of `record`. -/
def inField {α : Type} (record name : Text) (r : Except TypeError α) : Except TypeError α :=
  r.mapError (·.within record name)

/-- A character of a field name without its case. U+017F counts as `s` and U+212A as `k`. -/
def foldChar (c : Char) : Char :=
  if c.toNat = 0x17f then 'S'
  else if c.toNat = 0x212a then 'K'
  else c.toUpper

/-- The key spells the field name. -/
def keyMatches (name key : Text) : Bool := key.chars.map foldChar = name.chars.map foldChar

/-- Read a text field over its old value. -/
def readText (old : Text) : Json → Except TypeError Text
  | string t => .ok t
  | null => .ok old
  | j => .error ⟨j.kind, "string", [], []⟩

/-- Read a text field that can be absent; null makes it absent. -/
def readOptText : Json → Except TypeError (Option Text)
  | string t => .ok (some t)
  | null => .ok none
  | j => .error ⟨j.kind, "string", [], []⟩

/-- The 64-bit integer that a number spells without point and exponent. -/
def int64? (literal : Text) : Option Int :=
  let n : Option Int :=
    match literal with
    | 0x2d :: ds => if ds.all Text.isDigit then some (-(Text.digitsValue ds : Int)) else none
    | ds => if ds.all Text.isDigit then some (Text.digitsValue ds) else none
  n.filter fun n => Int64.minValue.toInt ≤ n && n ≤ Int64.maxValue.toInt

/-- Read an integer field over its old value. -/
def readInt (old : Int) : Json → Except TypeError Int
  | number n => match int64? n with
    | some i => .ok i
    | none => .error ⟨"number " ++ n, "int", [], []⟩
  | null => .ok old
  | j => .error ⟨j.kind, "int", [], []⟩

/-- A list that is read in place: the elements, and those that stand behind the end and come back
when a longer list is read. -/
structure Slots (α : Type) where
  items : List α := []
  spare : List α := []

namespace Slots

variable {α : Type}

/-- The elements in front of which a list is read. -/
def backing (s : Slots α) : List α := s.items ++ s.spare

/-- `new` was read over the elements of `s`. -/
def replace (s : Slots α) (new : List α) : Slots α :=
  if new.isEmpty then {} else { items := new, spare := s.backing.drop new.length }

end Slots

end ContractNet.Json
