import ContractNet.Text.Integer
import ContractNet.Text.Quoted

/-!
# Log levels

A level is a number; four of them have names.  A level is written as a name in any case, with an
optional offset (`warn+1`).
-/

namespace ContractNet

/-- How important a record is. -/
structure Level where
  value : Int
deriving DecidableEq

/-- Why a text is no level. -/
inductive LevelError where
  | unknownName
  | badOffset (offset : Text) (why : Text.IntegerError)
deriving DecidableEq

/-- Wording of an error about the level `t`. -/
def LevelError.message (t : Text) : LevelError → Text
  | unknownName => "slog: level string " ++ t.quoted ++ ": unknown name"
  | badOffset offset why =>
    "slog: level string " ++ t.quoted ++
      ": strconv.Atoi: parsing " ++ offset.quoted ++ ": " ++ why.message

namespace Level

/-- For whoever looks for a fault. -/
def debug : Level := ⟨-4⟩

/-- For everybody. -/
def info : Level := ⟨0⟩

/-- Something may be wrong. -/
def warn : Level := ⟨4⟩

/-- Something is wrong. -/
def error : Level := ⟨8⟩

/-- The capital of a letter, for the letters whose capital is an ASCII letter. -/
def capital (c : Char) : Char :=
  if c = '\u0131' then 'I' else if c = '\u017f' then 'S' else c.toUpper

/-- The level with a name. -/
def ofName? (name : Text) : Option Level :=
  let upper := Text.ofChars (name.chars.map capital)
  if upper = Text.ofString "DEBUG" then some debug
  else if upper = Text.ofString "INFO" then some info
  else if upper = Text.ofString "WARN" then some warn
  else if upper = Text.ofString "ERROR" then some error
  else none

/-- The level and an offset; levels are 64-bit numbers and wrap around. -/
def shift (l : Level) (offset : Int) : Level := ⟨Int.bmod (l.value + offset) UInt64.size⟩

/-- Read a level.  The offset is read before the name. -/
def parse (t : Text) : Except LevelError Level :=
  let isSign (b : UInt8) : Bool := b = '+' || b = '-'
  let name := t.takeWhile fun b => !isSign b
  let offset := t.dropWhile fun b => !isSign b
  let shiftBy : Except LevelError Int :=
    if offset.isEmpty then .ok 0
    else match Text.readInt64 false offset with
      | .ok n => .ok n
      | .error e => .error (.badOffset offset e)
  match shiftBy, ofName? name with
  | .error e, _ => .error e
  | .ok _, none => .error .unknownName
  | .ok n, some l => .ok (l.shift n)

end Level

end ContractNet
