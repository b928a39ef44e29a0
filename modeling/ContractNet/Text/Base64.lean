import ContractNet.Text.Basic

/-!
# Base 64

Three bytes are written as four letters; one or two bytes at the end are filled up with `=`.
`Text.base64Decode?` passes over line ends and takes back exactly what is written that way.
-/

namespace ContractNet.Text

/-- The letter of a six-bit number. -/
def base64Letter (n : Nat) : UInt8 :=
  if n < 26 then UInt8.ofNat ('A'.toNat + n)
  else if n < 52 then UInt8.ofNat ('a'.toNat + (n - 26))
  else if n < 62 then UInt8.ofNat ('0'.toNat + (n - 52))
  else if n = 62 then '+'
  else '/'

/-- The six-bit number of a letter. -/
def base64Value? (b : UInt8) : Option Nat :=
  if 'A'.toUInt8 ≤ b && b ≤ 'Z'.toUInt8 then some (b.toNat - 'A'.toNat)
  else if 'a'.toUInt8 ≤ b && b ≤ 'z'.toUInt8 then some (b.toNat - 'a'.toNat + 26)
  else if isDigit b then some (b.toNat - '0'.toNat + 52)
  else if b = '+' then some 62
  else if b = '/' then some 63
  else none

/-- The letters of a text. -/
def base64 : Text → Text
  | a :: b :: c :: r =>
    let n := a.toNat * 65536 + b.toNat * 256 + c.toNat
    base64Letter (n / 262144) :: base64Letter (n / 4096 % 64) :: base64Letter (n / 64 % 64) ::
      base64Letter (n % 64) :: base64 r
  | [a, b] =>
    let n := a.toNat * 256 + b.toNat
    [base64Letter (n / 1024), base64Letter (n / 16 % 64), base64Letter (n % 16 * 4), '=']
  | [a] => [base64Letter (a.toNat / 4), base64Letter (a.toNat % 4 * 16), '=', '=']
  | [] => []

/-- The bytes of groups of four letters. -/
def base64Groups : Text → Option Text
  | [] => some []
  | [a, b, 0x3d, 0x3d] => do
    let n := (← base64Value? a) * 64 + (← base64Value? b)
    pure [UInt8.ofNat (n / 16)]
  | [a, b, c, 0x3d] => do
    let n := ((← base64Value? a) * 64 + (← base64Value? b)) * 64 + (← base64Value? c)
    pure [UInt8.ofNat (n / 1024), UInt8.ofNat (n / 4 % 256)]
  | a :: b :: c :: d :: r => do
    let n := (((← base64Value? a) * 64 + (← base64Value? b)) * 64 + (← base64Value? c)) * 64 +
      (← base64Value? d)
    let rest ← base64Groups r
    pure (UInt8.ofNat (n / 65536) :: UInt8.ofNat (n / 256 % 256) :: UInt8.ofNat (n % 256) :: rest)
  | _ => none

/-- The bytes that the letters of a text stand for. -/
def base64Decode? (t : Text) : Option Text := base64Groups (t.filter fun b => b ≠ 0x0a && b ≠ 0x0d)

end ContractNet.Text
