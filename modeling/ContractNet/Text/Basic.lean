/-!
# Texts

A text is a sequence of bytes.  Contract sources, net labels and documents are texts: nothing
promises that they are valid UTF-8, and expressions are cut at byte positions.

* `Text.ofString` reads a string literal as its UTF-8 bytes; it is a coercion, so literals
  stand for texts;
* `Text.decimal` writes a number in base ten, `Text.integer` with a sign, `Text.hex` in base
  sixteen;
* `Text.join`, `Text.splitAt`, `Text.lines` and `Text.replaceByte` cut and join texts.
-/

namespace ContractNet

/-- A sequence of bytes. -/
abbrev Text := List UInt8

/-- A byte literal may be written as a character. -/
instance charToByte : Coe Char UInt8 := ⟨Char.toUInt8⟩

namespace Text

/-- The UTF-8 bytes of a string. -/
def ofString (s : String) : Text := s.toList.flatMap String.utf8EncodeChar

/-- A string literal stands for its bytes. -/
instance : Coe String Text := ⟨ofString⟩

/-! ### Numbers -/

/-- A number in base ten, without leading zeros. -/
def decimal (n : Nat) : Text := (Nat.toDigits 10 n).map Char.toUInt8

/-- An integer in base ten: a minus sign if it is negative, then its size. -/
def integer : Int → Text
  | .ofNat n => decimal n
  | .negSucc n => '-' :: decimal (n + 1)

/-- A number in base sixteen with small letters, without leading zeros. -/
def hex (n : Nat) : Text := (Nat.toDigits 16 n).map Char.toUInt8

/-- Fill up on the left with zeros to at least `width` bytes. -/
def padZeros (width : Nat) (t : Text) : Text := List.replicate (width - t.length) '0'.toUInt8 ++ t

/-- A decimal digit. -/
def isDigit (b : UInt8) : Bool := '0'.toUInt8 ≤ b && b ≤ '9'.toUInt8

/-- The value of a hexadecimal digit. -/
def hexDigit? (b : UInt8) : Option Nat :=
  if isDigit b then some (b.toNat - '0'.toNat)
  else if 'a'.toUInt8 ≤ b && b ≤ 'f'.toUInt8 then some (b.toNat - 'a'.toNat + 10)
  else if 'A'.toUInt8 ≤ b && b ≤ 'F'.toUInt8 then some (b.toNat - 'A'.toNat + 10)
  else none

/-- The number that a run of decimal digits denotes. -/
def digitsValue (t : Text) : Nat := t.foldl (fun n b => 10 * n + (b.toNat - '0'.toNat)) 0

/-! ### Cutting and joining -/

/-- The texts one after the other, with `sep` between neighbours. -/
def join (sep : Text) (ts : List Text) : Text := (ts.intersperse sep).flatten

/-- What follows `front` in `t`, if `t` starts with it. -/
def after? (front t : Text) : Option Text := front.isPrefixOf? t

/-- `t` starts with `front`. -/
def startsWith (t front : Text) : Bool := front.isPrefixOf t

/-- `t` ends with `back`. -/
def endsWith (t back : Text) : Bool := back.isSuffixOf t

/-- What stands before and after the first occurrence of `sep`. -/
def cut? (sep : Text) : Text → Option (Text × Text)
  | [] => if sep.isEmpty then some ([], []) else none
  | b :: r =>
    match after? sep (b :: r) with
    | some rest => some ([], rest)
    | none => (cut? sep r).map fun (front, rest) => (b :: front, rest)

/-- `part` occurs in `t`. -/
def includes (t part : Text) : Bool := (cut? part t).isSome

/-- The pieces between the occurrences of a byte. -/
def splitAt (sep : UInt8) : Text → List Text
  | [] => [[]]
  | b :: r =>
    if b = sep then [] :: splitAt sep r
    else match splitAt sep r with
      | [] => [[b]]
      | p :: ps => (b :: p) :: ps

/-- Every occurrence of a byte replaced by a text. -/
def replaceByte (old : UInt8) (new : Text) (t : Text) : Text :=
  t.flatMap fun b => if b = old then new else [b]

/-- The byte order on texts. -/
def le : Text → Text → Bool
  | [], _ => true
  | _ :: _, [] => false
  | a :: s, b :: t => a < b || (a = b && le s t)

/-- ASCII capitals become small letters; every other byte stays. -/
def lowerAscii (t : Text) : Text :=
  t.map fun b => if 'A'.toUInt8 ≤ b && b ≤ 'Z'.toUInt8 then b + 32 else b

end Text

end ContractNet
