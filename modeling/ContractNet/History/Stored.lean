import ContractNet.History.Basic
import ContractNet.Text.Integer

/-!
# Histories in files

A stored history starts with a mark; its runs follow, the one recorded last first.  Every field of a
run is written as its length, a colon and its bytes, so that nothing in it needs to be escaped.

* `History.toText` writes a history;
* `History.ofText?` reads it back.  A file of at most one byte holds no runs; any other text
  without the mark is no history.
-/

namespace ContractNet

/-! ### Fields -/

/-- A field: its length, a colon and its bytes. -/
def storedField (t : Text) : Text := Text.decimal t.length ++ ":" ++ t

/-- The field at the front of a text, and what follows it. -/
def readField? (t : Text) : Option (Text × Text) :=
  let digits := t.takeWhile Text.isDigit
  match t.drop digits.length with
  | 0x3a :: rest =>
    let n := Text.digitsValue digits
    if n ≤ rest.length then some (rest.take n, rest.drop n) else none
  | _ => none

/-- The fields at the front of a text, and what follows them. -/
def readFields? : Nat → Text → Option (List Text × Text)
  | 0, t => some ([], t)
  | n + 1, t => do
    let (f, rest) ← readField? t
    let (fs, rest) ← readFields? n rest
    pure (f :: fs, rest)

/-! ### Runs -/

namespace Row

/-- The fields of a run. -/
def fields (row : Row) : List Text :=
  [row.run.id, row.run.contract, row.run.cid, Text.integer row.run.places,
    Text.integer row.run.transitions, Text.integer row.run.arcs,
    if row.run.valid then "1" else "0", row.run.document, row.time]

/-- The number of fields of a run. -/
def fieldCount : Nat := 9

/-- The run with the given fields; its instant is that of its time, read when it is asked for. -/
def ofFields? : List Text → Option Row
  | [id, contract, cid, places, transitions, arcs, valid, document, time] => do
    let places ← (Text.readDigits64 10 places).toOption
    let transitions ← (Text.readDigits64 10 transitions).toOption
    let arcs ← (Text.readDigits64 10 arcs).toOption
    let valid := decide (valid = Text.ofString "1")
    pure ⟨⟨id, contract, cid, places, transitions, arcs, valid, document, Instant.zero⟩, time⟩
  | _ => none

/-- A run as it is stored. -/
def toText (row : Row) : Text := (row.fields.map storedField).flatten

end Row

namespace History

/-- What a stored history starts with; the zero byte keeps it from being taken for a document. -/
def mark : Text := Text.ofString "Stored runs" ++ [0, 0x0a]

/-- The history as it is stored. -/
def toText (h : History) : Text := mark ++ (h.rows.map Row.toText).flatten

/-- The runs of a text; `fuel` bounds their number. -/
def readRows? : Nat → Text → Option (List Row)
  | _, [] => some []
  | 0, _ :: _ => none
  | fuel + 1, t => do
    let (fs, rest) ← readFields? Row.fieldCount t
    let row ← Row.ofFields? fs
    let rows ← readRows? fuel rest
    pure (row :: rows)

/-- A stored history. -/
def ofText? (t : Text) : Option History :=
  if t.length ≤ 1 then some {}
  else do
    let rest ← Text.after? mark t
    let rows ← readRows? rest.length rest
    pure ⟨rows⟩

end History

end ContractNet
