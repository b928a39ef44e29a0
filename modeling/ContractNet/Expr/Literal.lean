import ContractNet.Expr.Token
import ContractNet.Text.Blank

/-!
# Integer literals

`Expr.parseUint` reads a decimal or hexadecimal literal, with underscores as separators, as a
256-bit word.  The digits of a decimal literal are taken in groups of 19 from the right, and a
group that holds anything but digits is named in the error.
-/

namespace ContractNet.Expr

/-- Why a text is no 256-bit literal. -/
inductive LiteralError where
  /-- Nothing is left without white space and underscores. -/
  | empty
  /-- A plus sign without digits. -/
  | noDigits
  /-- The decimal number needs more than 256 bits. -/
  | decimalRange
  /-- A group of decimal digits holds another byte. -/
  | badDigits (group : Text)
  /-- The hexadecimal number needs more than 256 bits. -/
  | hexRange
  /-- A byte after `0x` is no hexadecimal digit. -/
  | badHex
deriving DecidableEq

/-- The wording of an error about the literal `text`. -/
def LiteralError.message (text : Text) : LiteralError → Text
  | empty => "empty literal"
  | noDigits => "decimal literal " ++ text.quoted ++ ": EOF"
  | decimalRange => "decimal literal " ++ text.quoted ++ ": hex number > 256 bits"
  | badDigits group =>
    "decimal literal " ++ text.quoted ++ ": strconv.ParseUint: parsing " ++ group.quoted ++
      ": invalid syntax"
  | hexRange => "hex literal " ++ text.quoted ++ ": hex number > 256 bits"
  | badHex => "hex literal " ++ text.quoted ++ ": invalid hex string"

/-- Drop leading zeros, but keep the last byte of a text of zeros. -/
def dropZeros : Text → Text
  | b :: c :: r => if b = '0' then dropZeros (c :: r) else b :: c :: r
  | t => t

/-- The greatest 256-bit number in base ten. -/
def maxDecimal : Text := Text.decimal (Nat.pow 2 256 - 1)

/-- The groups of 19 bytes of a text, the rightmost first and the shorter rest last; `fuel`
bounds their number. -/
def groups19 : Nat → Text → List Text
  | 0, _ => []
  | fuel + 1, t =>
    if t.length ≤ 19 then [t]
    else t.drop (t.length - 19) :: groups19 fuel (t.take (t.length - 19))

/-- Add up groups of decimal digits, the least significant first. -/
def sumGroups : List Text → Except LiteralError Nat
  | [] => .ok 0
  | g :: gs =>
    if g.all Text.isDigit && !g.isEmpty then do
      let high ← sumGroups gs
      pure (Text.digitsValue g + Nat.pow 10 19 * high)
    else .error (.badDigits g)

/-- Read decimal digits after an optional plus sign. -/
def parseDecimal (t : Text) : Except LiteralError Nat :=
  let digits := dropZeros ((Text.after? "+" t).getD t)
  if digits.length > maxDecimal.length then .error .decimalRange
  else if digits.length = maxDecimal.length && !digits.le maxDecimal then .error .decimalRange
  else if digits = [] then .error .noDigits
  else sumGroups (groups19 digits.length digits)

/-- Read hexadecimal digits; their number is checked first. -/
def parseHex (t : Text) : Except LiteralError Nat :=
  let digits := t.dropWhile (· = '0'.toUInt8)
  if digits.length > 64 then .error .hexRange
  else match digits.mapM Text.hexDigit? with
    | some ds => .ok (ds.foldl (fun n d => 16 * n + d) 0)
    | none => .error .badHex

/-- What follows the mark of a hexadecimal literal. -/
def hexDigits? (t : Text) : Option Text := (Text.after? "0x" t).or (Text.after? "0X" t)

/-- Read an integer literal as a 256-bit word. -/
def parseUint (text : Text) : Except LiteralError (BitVec 256) :=
  let t := text.trim.filter (· ≠ '_'.toUInt8)
  if t = [] then .error .empty
  else match hexDigits? t with
    | some digits => (BitVec.ofNat 256) <$> parseHex digits
    | none => (BitVec.ofNat 256) <$> parseDecimal t

/-- The text is one number token, made of decimal digits and underscores or marked as
hexadecimal. -/
def isIntegerLiteral (text : Text) : Bool :=
  match tokenize text with
  | [t, _] =>
    t.kind = .number &&
      match hexDigits? t.literal with
      | some digits => !digits.isEmpty
      | none => t.literal.all fun b => Text.isDigit b || b = '_'.toUInt8
  | _ => false

end ContractNet.Expr
