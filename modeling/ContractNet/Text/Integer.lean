import ContractNet.Text.Basic

/-!
# Machine integers in texts

`Text.readInt64` and `Text.readUInt64` read the spelling of a 64-bit number.  In the free base the
spelling may say its base by a mark (`0x`, `0o`, `0b`, or a leading zero for base eight) and may
hold underscores between digits; otherwise it is decimal.

The digits are read from the left, so a number that has grown too large is reported before a bad
byte further to the right, and a bad byte before a number that only its sign makes too large.
-/

namespace ContractNet.Text

/-- Why a text is no machine integer. -/
inductive IntegerError where
  | invalidSyntax
  | outOfRange
deriving DecidableEq

/-- Wording of the errors. -/
def IntegerError.message : IntegerError → Text
  | invalidSyntax => "invalid syntax"
  | outOfRange => "value out of range"

/-- The value of a digit or letter in bases up to 36. -/
def alphaDigit? (b : UInt8) : Option Nat :=
  if isDigit b then some (b.toNat - '0'.toNat)
  else if 'a'.toUInt8 ≤ b && b ≤ 'z'.toUInt8 then some (b.toNat - 'a'.toNat + 10)
  else if 'A'.toUInt8 ≤ b && b ≤ 'Z'.toUInt8 then some (b.toNat - 'A'.toNat + 10)
  else none

/-- Read digits of a base below `2 ^ 64`, on top of what has been read; underscores are passed
over if they may stand there. -/
def digits64 (base : Nat) (underscores : Bool) (n : Nat) : Text → Except IntegerError Nat
  | [] => .ok n
  | b :: r =>
    if underscores && b = '_' then digits64 base underscores n r
    else match alphaDigit? b with
      | some d =>
        if base ≤ d then .error .invalidSyntax
        else if UInt64.size ≤ base * n + d then .error .outOfRange
        else digits64 base underscores (base * n + d) r
      | none => .error .invalidSyntax

/-- The base that the mark of a spelling tells, and what follows the mark. -/
def baseMark : Text → Nat × Text
  | [0x30] => (8, [])
  | [0x30, b] => (8, [b])
  | 0x30 :: m :: r =>
    if m = 'b' || m = 'B' then (2, r)
    else if m = 'o' || m = 'O' then (8, r)
    else if m = 'x' || m = 'X' then (16, r)
    else (8, m :: r)
  | t => (10, t)

/-- What was seen last while underscores are checked. -/
inductive LastSeen where
  | start | digit | underscore | other
deriving DecidableEq

/-- Every underscore of a number stands between digits; `hexadecimal` tells what a digit is. -/
def underscoresBetween (hexadecimal : Bool) : LastSeen → Text → Bool
  | last, [] => last ≠ .underscore
  | last, b :: r =>
    if isDigit b || (hexadecimal && (hexDigit? b).isSome) then
      underscoresBetween hexadecimal .digit r
    else if b = '_' then last = .digit && underscoresBetween hexadecimal .underscore r
    else last ≠ .underscore && underscoresBetween hexadecimal .other r

/-- Drop one sign from the front. -/
def dropSign : Text → Text
  | b :: r => if b = '+' || b = '-' then r else b :: r
  | [] => []

/-- The underscores of a spelling stand between digits, or between the mark of a base and a
digit. -/
def underscoresWell (t : Text) : Bool :=
  match dropSign t with
  | 0x30 :: m :: r =>
    if m = 'x' || m = 'X' then underscoresBetween true .digit r
    else if m = 'b' || m = 'B' || m = 'o' || m = 'O' then underscoresBetween false .digit r
    else underscoresBetween false .start (0x30 :: m :: r)
  | s => underscoresBetween false .start s

/-- Read a number without a sign. -/
def readUInt64 (freeBase : Bool) (t : Text) : Except IntegerError Nat :=
  if t.isEmpty then .error .invalidSyntax
  else
    let (base, digits) := if freeBase then baseMark t else (10, t)
    match digits64 base freeBase 0 digits with
    | .ok n =>
      if freeBase && t.contains '_'.toUInt8 && !underscoresWell t then .error .invalidSyntax
      else .ok n
    | .error e => .error e

/-- A size with its sign, if it fits into 64 bits. -/
def signed64 (negative : Bool) (n : Nat) : Except IntegerError Int :=
  if negative then
    if Nat.pow 2 63 < n then .error .outOfRange else .ok (-(n : Int))
  else
    if Nat.pow 2 63 ≤ n then .error .outOfRange else .ok n

/-- Read a number with an optional sign. -/
def readInt64 (freeBase : Bool) (t : Text) : Except IntegerError Int := do
  let n ← readUInt64 freeBase (dropSign t)
  signed64 (t.startsWith "-") n

/-- Read digits of a given base with an optional sign. -/
def readDigits64 (base : Nat) (t : Text) : Except IntegerError Int :=
  if (dropSign t).isEmpty then .error .invalidSyntax
  else do
    let n ← digits64 base false 0 (dropSign t)
    signed64 (t.startsWith "-") n

end ContractNet.Text
