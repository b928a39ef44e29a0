import ContractNet.Text.Base64
import ContractNet.Yaml.Scalar
import ContractNet.Yaml.Schema

/-!
# Writing YAML scalars

`Yaml.writeText` writes a text as the value of a key.  It stands plain if it reads back as that
text; otherwise it is quoted: by double quotes if it would be another kind of value or holds
characters that need escapes, by single quotes else.  A text with line feeds is written on lines
of its own.  A text that is not UTF-8 is written in base 64 with a tag.
-/

namespace ContractNet.Yaml

/-- How many spaces a level of a mapping is indented by. -/
def indentStep : Nat := 2

/-- The character can be written as it is. -/
def isPlainChar (c : Char) : Bool :=
  c = '\n' || (0x20 ≤ c.toNat && c.toNat ≤ 0x7e) ||
    (0xa0 ≤ c.toNat && c.toNat ≤ 0xfffd && c.toNat ≠ 0xfeff)

/-- Two neighbours in a text of which the first and the second are of given kinds. -/
def hasPair (p q : Char → Bool) : List Char → Bool
  | a :: b :: r => (p a && q b) || hasPair p q (b :: r)
  | _ => false

/-- A space. -/
def isSpace (c : Char) : Bool := c = ' '

/-- A character that starts something else than a plain scalar. -/
def isIndicator (c : Char) : Bool :=
  c = '#' || c = ',' || c = '[' || c = ']' || c = '\x7b' || c = '\x7d' || c = '&' || c = '*' ||
    c = '!' || c = '|' || c = '>' || c = '\x27' || c = '"' || c = '%' || c = '@' || c.toNat = 0x60

/-- A blank or nothing follows. -/
def blankNext (r : List Char) : Bool := r.head?.all isBlank

/-- A colon before a blank or at the end, or a comment after a blank, inside a text. -/
def endsPlain : List Char → Bool
  | [] => false
  | c :: r =>
    (c = ':' && blankNext r) || ((isBlank c || isBreak c) && r.head? = some '#') || endsPlain r

/-- The text could be taken for something else than a plain scalar. -/
def hasIndicators (cs : List Char) : Bool :=
  cs.take 3 = ['-', '-', '-'] || cs.take 3 = ['.', '.', '.'] || endsPlain cs ||
    match cs with
    | [] => false
    | c :: r => isIndicator c || ((c = '?' || c = '-') && blankNext r)

/-- Some character needs an escape, a tab apart. -/
def hasSpecials (cs : List Char) : Bool := cs.any fun c => c ≠ '\t' && !isPlainChar c

/-- The text may stand without quotes. -/
def plainAllowed (cs : List Char) : Bool :=
  !(cs.any isBreak) && !(cs.head?.any isSpace) && !(cs.getLast?.any isSpace) && !cs.contains '\t' &&
    !hasSpecials cs && !hasIndicators cs

/-- The text may stand in single quotes. -/
def singleAllowed (cs : List Char) : Bool :=
  !hasPair isBreak isSpace cs && !hasPair isSpace isBreak cs && !cs.contains '\t' && !hasSpecials cs

/-- The text may stand on lines of its own. -/
def blockAllowed (cs : List Char) : Bool :=
  !(cs.getLast?.any isSpace) && !hasPair isSpace isBreak cs && !hasSpecials cs

/-- The style of a text: on lines of its own if it holds a line feed, in double quotes if it would
mean something else. -/
def styleOf (quoted : Bool) (cs : List Char) : ScalarStyle :=
  if cs.contains '\n' then (if blockAllowed cs then .literal else .doubleQuoted)
  else if quoted then .doubleQuoted
  else if plainAllowed cs then .plain
  else if singleAllowed cs then .singleQuoted
  else .doubleQuoted

/-! ### The styles -/

/-- A hexadecimal number with capital letters, filled up to a width. -/
def upperHex (width n : Nat) : Text :=
  Text.padZeros width ((Text.hex n).map fun b => if 'a'.toUInt8 ≤ b then b - 32 else b)

/-- The escape of a character. -/
def escape (c : Char) : Text :=
  match c.toNat with
  | 0x00 => "\\0"
  | 0x07 => "\\a"
  | 0x08 => "\\b"
  | 0x09 => "\\t"
  | 0x0a => "\\n"
  | 0x0b => "\\v"
  | 0x0c => "\\f"
  | 0x0d => "\\r"
  | 0x1b => "\\e"
  | 0x22 => "\\\""
  | 0x5c => "\\\\"
  | 0x85 => "\\N"
  | 0xa0 => "\\_"
  | 0x2028 => "\\L"
  | 0x2029 => "\\P"
  | n =>
    if n ≤ 0xff then "\\x" ++ upperHex 2 n
    else if n ≤ 0xffff then "\\u" ++ upperHex 4 n
    else "\\U" ++ upperHex 8 n

/-- A character in double quotes; `all` asks for an escape in any case. -/
def doubleChar (all : Bool) (c : Char) : Text :=
  if all || !isPlainChar c || isBreak c || c = '"' || c = '\\' then escape c else Text.ofChar c

/-- A text in double quotes.  After a byte order mark all characters are escaped. -/
def writeDouble (cs : List Char) : Text :=
  let all : Bool := cs.head? = some byteOrderMark
  "\"" ++ cs.flatMap (doubleChar all) ++ "\""

/-- The characters of a text in single quotes; a line goes on after the margin. -/
def singleBody (margin : Text) (broken : Bool) : List Char → Text
  | [] => []
  | c :: r =>
    if isBreak c then Text.ofChar c ++ singleBody margin true r
    else (if broken then margin else []) ++ (if c = '\x27' then [0x27, 0x27] else Text.ofChar c) ++
      singleBody margin false r

/-- A text in single quotes. -/
def writeSingle (margin : Text) (cs : List Char) : Text := "'" ++ singleBody margin false cs ++ "'"

/-- What the first line of a block says: the indentation, if the text starts with a blank or an
empty line, and what happens to the line ends at its end. -/
def blockHints (cs : List Char) : Text :=
  (if cs.head?.any fun c => isSpace c || isBreak c then Text.decimal indentStep else []) ++
    match cs.reverse with
    | [] => "-"
    | [c] => if isBreak c then "+" else "-"
    | c :: b :: _ => if !isBreak c then "-" else if isBreak b then "+" else []

/-- The lines of a block: each starts after the margin. -/
def literalBody (margin : Text) (broken : Bool) : List Char → Text
  | [] => []
  | c :: r =>
    if isBreak c then Text.ofChar c ++ literalBody margin true r
    else (if broken then margin else []) ++ Text.ofChar c ++ literalBody margin false r

/-- A text on lines of its own.  An empty first line is the end of the line of the mark. -/
def writeLiteral (margin : Text) (cs : List Char) : Text :=
  let firstLine : Text := "|" ++ blockHints cs
  (if cs.head?.all isBreak then firstLine else firstLine ++ "\n") ++ literalBody margin true cs

/-- A text in a style. -/
def writeStyle (margin : Text) (style : ScalarStyle) (cs : List Char) : Text :=
  match style with
  | .plain => Text.ofChars cs
  | .singleQuoted => writeSingle margin cs
  | .doubleQuoted => writeDouble cs
  | .literal | .folded => writeLiteral margin cs

/-- The end of the line of a scalar, unless the scalar ends with one. -/
def lineEndAfter (style : ScalarStyle) (cs : List Char) : Text :=
  if style = .literal && cs.getLast?.any isBreak then [] else "\n"

/-! ### Texts -/

/-- The lines of `width` bytes of a text, each with a line feed; `fuel` bounds their number. -/
def wrap (width : Nat) : Nat → Text → Text
  | 0, _ => []
  | fuel + 1, t => if t.isEmpty then [] else t.take width ++ "\n" ++ wrap width fuel (t.drop width)

/-- Base 64 in lines of 70 letters, if there are so many. -/
def binaryText (t : Text) : Text :=
  let letters := t.base64
  if letters.length < 70 then letters else wrap 70 letters.length letters

/-- A text as the value of a key, with the end of its line; `margin` starts its further lines. -/
def writeText (margin : Text) (t : Text) : Text :=
  if t.isValid then
    let cs := t.chars
    let style := styleOf (needsQuotes t) cs
    " " ++ writeStyle margin style cs ++ lineEndAfter style cs
  else
    let cs := (binaryText t).chars
    let style := styleOf false cs
    " !!binary " ++ writeStyle margin style cs ++ lineEndAfter style cs

/-- A key that holds a text, at a level of a mapping. -/
def writeEntry (level : Nat) (key t : Text) : Text :=
  let spaces (n : Nat) : Text := List.replicate (indentStep * n) ' '.toUInt8
  spaces level ++ key ++ ":" ++ writeText (spaces (level + 1)) t

end ContractNet.Yaml
