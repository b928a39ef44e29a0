import ContractNet.Text.Utf8

/-!
# JSON values

Strings hold texts, numbers keep their spelling, and the members of an object keep their order
and their repetitions.

`Json.pretty` writes a value with two spaces of indentation for each level.  `Json.quote` writes a
string with the escapes of `Json.Escapes`: a document shows `<`, `>` and `&` as numbers, a log line
shows them as they are.
-/

namespace ContractNet

/-- A JSON value. -/
inductive Json where
  | null
  | bool (b : Bool)
  /-- A number with its spelling. -/
  | number (literal : Text)
  | string (t : Text)
  | array (items : List Json)
  | object (members : List (Text × Json))

namespace Json

/-- An integer. -/
def int (n : Int) : Json := number (Text.integer n)

/-- A natural number. -/
def nat (n : Nat) : Json := number (Text.decimal n)

/-- A list, or null where there is nothing to list. -/
def listOrNull (items : List Json) : Json := if items.isEmpty then null else array items

/-! ### Records with optional members -/

/-- The object of the members that are there. -/
def record (members : List (Text × Option Json)) : Json :=
  object (members.filterMap fun (k, j) => j.map (k, ·))

/-- A text that is left out when it is empty. -/
def unlessEmpty (t : Text) : Option Json := if t.isEmpty then none else some (string t)

/-- A number that is left out when it is zero. -/
def unlessZero (n : Int) : Option Json := if n = 0 then none else some (int n)

/-- A list that is left out when it has no items. -/
def unlessNil (items : List Json) : Option Json :=
  if items.isEmpty then none else some (array items)

/-! ### Strings -/

/-- Which characters of a string are escaped beyond those that have to be. -/
structure Escapes where
  /-- `<`, `>` and `&` are written as numbers. -/
  markup : Bool
  /-- Backspace and form feed are written as letters. -/
  letters : Bool

/-- Strings of documents. -/
def documentEscapes : Escapes := ⟨true, true⟩

/-- Strings of log lines. -/
def logEscapes : Escapes := ⟨false, false⟩

/-- The escape of a character by its number. -/
def numberEscape (n : Nat) : Text := "\\u" ++ Text.padZeros 4 (Text.hex n)

/-- A character inside a string. -/
def escapeChar (e : Escapes) (c : Char) : Text :=
  if c = '"' then "\\\""
  else if c = '\\' then "\\\\"
  else if c = '\n' then "\\n"
  else if c = '\r' then "\\r"
  else if c = '\t' then "\\t"
  else if e.letters && c.toNat = 8 then "\\b"
  else if e.letters && c.toNat = 12 then "\\f"
  else if c.toNat < 0x20 || c.toNat = 0x2028 || c.toNat = 0x2029 then numberEscape c.toNat
  else if e.markup && (c = '<' || c = '>' || c = '&') then numberEscape c.toNat
  else Text.ofChar c

/-- A piece of a text inside a string; a stray byte is written as the number of U+FFFD. -/
def escapePiece (e : Escapes) : Piece → Text
  | .char c => escapeChar e c
  | .stray _ => numberEscape 0xfffd

/-- A text as a string. -/
def quote (e : Escapes) (t : Text) : Text := "\"" ++ t.pieces.flatMap (escapePiece e) ++ "\""

/-! ### Documents -/

/-- A new line with two spaces for each level. -/
def newLine (level : Nat) : Text := "\n" ++ List.replicate (2 * level) ' '.toUInt8

mutual

/-- A value that stands `level` levels deep. -/
def prettyAt (level : Nat) : Json → Text
  | null => "null"
  | bool true => "true"
  | bool false => "false"
  | number n => n
  | string t => quote documentEscapes t
  | array [] => "[]"
  | array (j :: js) =>
    "[" ++ newLine (level + 1) ++ prettyAt (level + 1) j ++ prettyItems (level + 1) js ++
      newLine level ++ "]"
  | object [] => "\x7b\x7d"
  | object (m :: ms) =>
    "\x7b" ++ newLine (level + 1) ++ prettyMember (level + 1) m ++ prettyMembers (level + 1) ms ++
      newLine level ++ "\x7d"

/-- The items after the first, each after a comma on a line of its own. -/
def prettyItems (level : Nat) : List Json → Text
  | [] => []
  | j :: js => "," ++ newLine level ++ prettyAt level j ++ prettyItems level js

/-- A member of an object. -/
def prettyMember (level : Nat) : Text × Json → Text
  | (k, j) => quote documentEscapes k ++ ": " ++ prettyAt level j

/-- The members after the first, each after a comma on a line of its own. -/
def prettyMembers (level : Nat) : List (Text × Json) → Text
  | [] => []
  | m :: ms => "," ++ newLine level ++ prettyMember level m ++ prettyMembers level ms

end

/-- The value as an indented document, without a final newline. -/
def pretty (j : Json) : Text := prettyAt 0 j

end Json

end ContractNet
