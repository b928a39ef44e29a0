import ContractNet.Text.Utf8
import ContractNet.Text.Printable

/-!
# Quoted texts

`Text.quoted` writes a text between double quotes so that it can be shown on one line of ASCII
and printable characters.  Quotes and backslashes are escaped by a backslash, control characters
have their short names or a number, and a stray byte is written `\xNN`.
-/

namespace ContractNet.Text

/-- The letter that names a control character in an escape. -/
def controlLetter? (c : Char) : Option UInt8 :=
  match c.toNat with
  | 7 => some 'a'
  | 8 => some 'b'
  | 9 => some 't'
  | 10 => some 'n'
  | 11 => some 'v'
  | 12 => some 'f'
  | 13 => some 'r'
  | _ => none

/-- A character as it stands inside a quoted text. -/
def quotedChar (c : Char) : Text :=
  if c = '"' || c = '\\' then '\\' :: ofChar c
  else if isPrintable c then ofChar c
  else match controlLetter? c with
    | some l => ['\\', l]
    | none =>
      if c.toNat < 0x80 then "\\x" ++ padZeros 2 (hex c.toNat)
      else if c.toNat < 0x10000 then "\\u" ++ padZeros 4 (hex c.toNat)
      else "\\U" ++ padZeros 8 (hex c.toNat)

/-- A piece of a text as it stands inside a quoted text. -/
def quotedPiece : Piece → Text
  | .char c => quotedChar c
  | .stray b => "\\x" ++ padZeros 2 (hex b.toNat)

/-- The text between double quotes, escaped. -/
def quoted (t : Text) : Text := "\"" ++ t.pieces.flatMap quotedPiece ++ "\""

end ContractNet.Text
