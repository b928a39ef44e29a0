import ContractNet.Text.Basic

/-!
# White space around texts

`Text.trim` removes the white space characters of Unicode from both ends of a text.  A text is a
byte sequence, so white space is given by the encodings of its characters (`Text.blanks`).
-/

namespace ContractNet.Text

/-- The encodings of the white space characters: the six ASCII ones, U+0085, U+00A0, U+1680,
U+2000 to U+200A, U+2028, U+2029, U+202F, U+205F and U+3000. -/
def blanks : List Text :=
  [[0x09], [0x0a], [0x0b], [0x0c], [0x0d], [0x20], [0xc2, 0x85], [0xc2, 0xa0],
    [0xe1, 0x9a, 0x80], [0xe2, 0x80, 0x80], [0xe2, 0x80, 0x81], [0xe2, 0x80, 0x82],
    [0xe2, 0x80, 0x83], [0xe2, 0x80, 0x84], [0xe2, 0x80, 0x85], [0xe2, 0x80, 0x86],
    [0xe2, 0x80, 0x87], [0xe2, 0x80, 0x88], [0xe2, 0x80, 0x89], [0xe2, 0x80, 0x8a],
    [0xe2, 0x80, 0xa8], [0xe2, 0x80, 0xa9], [0xe2, 0x80, 0xaf], [0xe2, 0x81, 0x9f],
    [0xe3, 0x80, 0x80]]

/-- The number of bytes of the first of the `codes` that the text starts with; 0 if there is
none. -/
def codeLength (codes : List Text) (t : Text) : Nat :=
  ((codes.find? t.startsWith).map List.length).getD 0

/-- Drop `codes` from the front as long as the text starts with one. -/
def dropCodes (codes : List Text) : Text → Text
  | [] => []
  | b :: r =>
    if codeLength codes (b :: r) = 0 then b :: r
    else dropCodes codes (r.drop (codeLength codes (b :: r) - 1))
termination_by t => t.length
decreasing_by
  rw [List.length_drop, List.length_cons]
  omega

/-- Remove white space from the front. -/
def trimLeft (t : Text) : Text := dropCodes blanks t

/-- Remove white space from the back. -/
def trimRight (t : Text) : Text := (dropCodes (blanks.map List.reverse) t.reverse).reverse

/-- Remove white space from both ends. -/
def trim (t : Text) : Text := trimRight (trimLeft t)

/-- Nothing but white space. -/
def isBlank (t : Text) : Bool := t.trim.isEmpty

end ContractNet.Text
