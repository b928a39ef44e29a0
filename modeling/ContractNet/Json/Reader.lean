import ContractNet.Json.Basic
import ContractNet.Text.Quoted

/-!
# Reading JSON

`Json.parse` reads a text that is one JSON value, with white space around it.  Arrays and objects
may stand in one another at most `Json.maxDepth` deep.  In strings, stray bytes and halves of
surrogate pairs are read as U+FFFD.

A text that is no value is refused at its first byte that cannot belong to one.  The end of the text
counts as a space: where a space may not stand either, it is the byte that is refused.
-/

namespace ContractNet.Json

/-- How many arrays and objects may be open at a time. -/
def maxDepth : Nat := 10000

/-! ### Errors -/

/-- What a refused byte stands in or after. -/
inductive SyntaxPlace where
  | value
  | key
  | afterKey
  | afterMember
  | afterItem
  | afterValue
  | string
  | escape
  | hexEscape
  | number
  | fraction
  | exponent
  /-- Inside a word, where a certain letter comes next. -/
  | word (w : Text) (letter : UInt8)
  /-- At a bracket or brace that opens one level too many. -/
  | depth
deriving DecidableEq

/-- Wording of a place. -/
def SyntaxPlace.text : SyntaxPlace → Text
  | value => "looking for beginning of value"
  | key => "looking for beginning of object key string"
  | afterKey => "after object key"
  | afterMember => "after object key:value pair"
  | afterItem => "after array element"
  | afterValue => "after top-level value"
  | string => "in string literal"
  | escape => "in string escape code"
  | hexEscape => "in \\u hexadecimal character escape"
  | number => "in numeric literal"
  | fraction => "after decimal point in numeric literal"
  | exponent => "in exponent of numeric literal"
  | word w letter => "in literal " ++ w ++ " (expecting '" ++ [letter] ++ "')"
  | depth => "exceeded max depth"

/-- Why a text is no JSON value. -/
inductive SyntaxError where
  | unexpectedEnd
  | unexpected (b : UInt8) (place : SyntaxPlace)
deriving DecidableEq

/-- A byte in single quotes, as the character with its number. -/
def quotedByte (b : UInt8) : Text :=
  if b = '\x27' then "'\\''"
  else if b = '"' then "'\"'"
  else "'" ++ ((Text.quoted (Text.ofChar (Char.ofNat b.toNat))).drop 1).dropLast ++ "'"

/-- Wording of the errors. -/
def SyntaxError.message : SyntaxError → Text
  | unexpectedEnd => "unexpected end of JSON input"
  | unexpected b place => "invalid character " ++ quotedByte b ++ " " ++ place.text

/-- The text is refused at its first byte. -/
def refuse {α : Type} (place : SyntaxPlace) : Text → Except SyntaxError (α × Text)
  | [] => .error .unexpectedEnd
  | b :: _ => .error (.unexpected b place)

/-- White space between the parts of a value. -/
def isSpace (b : UInt8) : Bool := b = 0x20 || b = 0x09 || b = 0x0a || b = 0x0d

/-- Drop white space from the front. -/
def skipSpace (t : Text) : Text := t.dropWhile isSpace

/-! ### Strings -/

/-- A part of a string: a byte, or the 16-bit unit of a numeric escape. -/
inductive StringUnit where
  | byte (b : UInt8)
  | unit (n : Nat)

/-- The byte that a one-letter escape stands for. -/
def escapedByte? (b : UInt8) : Option UInt8 :=
  match Char.ofNat b.toNat with
  | '"' => some 0x22
  | '\\' => some 0x5c
  | '/' => some 0x2f
  | 'b' => some 0x08
  | 'f' => some 0x0c
  | 'n' => some 0x0a
  | 'r' => some 0x0d
  | 't' => some 0x09
  | _ => none

/-- The number that four hexadecimal digits at the front denote. -/
def hex4 (t : Text) : Except SyntaxError Nat :=
  let digits := (t.take 4).takeWhile fun b => (Text.hexDigit? b).isSome
  if digits.length = 4 then .ok (digits.foldl (fun n b => 16 * n + (Text.hexDigit? b).getD 0) 0)
  else match t.drop digits.length with
    | [] => .error .unexpectedEnd
    | b :: _ => .error (.unexpected b .hexEscape)

/-- The parts of a string up to its closing quote, and what follows the quote. -/
def stringUnits : Text → Except SyntaxError (List StringUnit × Text)
  | [] => .error .unexpectedEnd
  -- `"` ends the string
  | 0x22 :: r => .ok ([], r)
  -- `\u` and four digits
  | 0x5c :: 0x75 :: a :: b :: c :: d :: r => do
    let n ← hex4 [a, b, c, d]
    let (us, rest) ← stringUnits r
    pure (.unit n :: us, rest)
  | 0x5c :: e :: r => do
    if e = 'u' then
      let _ ← hex4 r
      .error .unexpectedEnd
    else match escapedByte? e with
      | some b =>
        let (us, rest) ← stringUnits r
        pure (.byte b :: us, rest)
      | none => .error (.unexpected e .escape)
  | b :: r =>
    if b < 0x20 then .error (.unexpected b .string)
    else if b = 0x5c then .error .unexpectedEnd
    else do
      let (us, rest) ← stringUnits r
      pure (.byte b :: us, rest)

/-- The character of a surrogate pair. -/
def surrogatePair? (high low : Nat) : Option Char :=
  if 0xd800 ≤ high && high < 0xdc00 && 0xdc00 ≤ low && low < 0xe000 then
    some (Char.ofNat (0x10000 + (high - 0xd800) * 0x400 + (low - 0xdc00)))
  else none

/-- The character of a 16-bit unit that stands alone. -/
def unitChar (n : Nat) : Char := if 0xd800 ≤ n && n < 0xe000 then '\uFFFD' else Char.ofNat n

/-- The bytes of the parts of a string, surrogate pairs joined. -/
def unitsText : List StringUnit → Text
  | [] => []
  | .byte b :: us => b :: unitsText us
  | .unit n :: .unit m :: us =>
    match surrogatePair? n m with
    | some c => Text.ofChar c ++ unitsText us
    | none => Text.ofChar (unitChar n) ++ unitsText (.unit m :: us)
  | .unit n :: us => Text.ofChar (unitChar n) ++ unitsText us

/-- The text of a string after its opening quote, and what follows the string. -/
def readString (t : Text) : Except SyntaxError (Text × Text) := do
  let (us, rest) ← stringUnits t
  pure ((unitsText us).repaired, rest)

/-! ### Numbers -/

/-- One digit or more. -/
def digits (place : SyntaxPlace) (t : Text) : Except SyntaxError (Text × Text) :=
  let ds := t.takeWhile Text.isDigit
  if ds.isEmpty then refuse place t else .ok (ds, t.drop ds.length)

/-- A zero, or digits that start with no zero. -/
def wholePart (place : SyntaxPlace) : Text → Except SyntaxError (Text × Text)
  | 0x30 :: r => .ok (['0'], r)
  | t => digits place t

/-- A point and digits, or nothing. -/
def fraction : Text → Except SyntaxError (Text × Text)
  | 0x2e :: r => do
    let (ds, rest) ← digits .fraction r
    pure ('.' :: ds, rest)
  | t => .ok ([], t)

/-- `e` or `E`, an optional sign and digits, or nothing. -/
def exponent : Text → Except SyntaxError (Text × Text)
  | b :: r =>
    if b = 'e' || b = 'E' then do
      let sign := (r.take 1).filter fun s => s = '+'.toUInt8 || s = '-'.toUInt8
      let (ds, rest) ← digits .exponent (r.drop sign.length)
      pure (b :: sign ++ ds, rest)
    else .ok ([], b :: r)
  | [] => .ok ([], [])

/-- The spelling of a number, and what follows it. -/
def readNumber (t : Text) : Except SyntaxError (Text × Text) := do
  let sign := (t.take 1).filter (· = '-'.toUInt8)
  let (whole, t) ← wholePart (if sign.isEmpty then .value else .number) (t.drop sign.length)
  let (frac, t) ← fraction t
  let (exp, t) ← exponent t
  pure (sign ++ whole ++ frac ++ exp, t)

/-! ### Values -/

/-- What follows a word of which some letters have been read and others are to come. -/
def restOfWord (w : Text) : Text → Text → Except SyntaxError Text
  | [], t => .ok t
  | l :: ls, b :: r => if b = l then restOfWord w ls r else .error (.unexpected b (.word w l))
  | _ :: _, [] => .error .unexpectedEnd

/-- The word that a value stands for, and what follows it. -/
def readWord (w : Text) (j : Json) (r : Text) : Except SyntaxError (Json × Text) := do
  let rest ← restOfWord w (w.drop 1) r
  pure (j, rest)

/-- A word, a string or a number. -/
def readScalar (t : Text) : Except SyntaxError (Json × Text) :=
  match t with
  | [] => .error .unexpectedEnd
  | b :: r =>
    if b = 'n' then readWord "null" null r
    else if b = 't' then readWord "true" (bool true) r
    else if b = 'f' then readWord "false" (bool false) r
    else if b = '"' then do
      let (s, rest) ← readString r
      pure (string s, rest)
    else do
      let (n, rest) ← readNumber t
      pure (number n, rest)

/-- The items of an array after its bracket, up to the closing one; `fuel` bounds their number. -/
def readItems (value : Text → Except SyntaxError (Json × Text)) :
    Nat → Text → Except SyntaxError (List Json × Text)
  | 0, _ => .error .unexpectedEnd
  | fuel + 1, t => do
    let (j, r) ← value (skipSpace t)
    match skipSpace r with
    | 0x2c :: r' => do
      let (js, rest) ← readItems value fuel r'
      pure (j :: js, rest)
    | 0x5d :: r' => pure ([j], r')
    | r' => refuse .afterItem r'

/-- The members of an object after its brace, up to the closing one; `fuel` bounds their number. -/
def readMembers (value : Text → Except SyntaxError (Json × Text)) :
    Nat → Text → Except SyntaxError (List (Text × Json) × Text)
  | 0, _ => .error .unexpectedEnd
  | fuel + 1, t =>
    match skipSpace t with
    | 0x22 :: k => do
      let (key, r) ← readString k
      match skipSpace r with
      | 0x3a :: v => do
        let (j, r) ← value (skipSpace v)
        match skipSpace r with
        | 0x2c :: r' => do
          let (ms, rest) ← readMembers value fuel r'
          pure ((key, j) :: ms, rest)
        | 0x7d :: r' => pure ([(key, j)], r')
        | r' => refuse .afterMember r'
      | r' => refuse .afterKey r'
    | r' => refuse .key r'

/-- A value at the front of a text, with at most `depth` arrays and objects in one another. -/
def readValue : Nat → Text → Except SyntaxError (Json × Text)
  | 0, t =>
    match t with
    | 0x5b :: _ => refuse .depth t
    | 0x7b :: _ => refuse .depth t
    | t => readScalar t
  | depth + 1, t =>
    match t with
    -- `[`
    | 0x5b :: r =>
      match skipSpace r with
      | 0x5d :: r' => .ok (array [], r')
      | r' => do
        let (js, rest) ← readItems (readValue depth) (r'.length + 1) r'
        pure (array js, rest)
    -- `{`
    | 0x7b :: r =>
      match skipSpace r with
      | 0x7d :: r' => .ok (object [], r')
      | r' => do
        let (ms, rest) ← readMembers (readValue depth) (r'.length + 1) r'
        pure (object ms, rest)
    | t => readScalar t

/-- The value that the whole text denotes. -/
def parse (t : Text) : Except SyntaxError Json := do
  let (j, rest) ← readValue maxDepth (skipSpace (t ++ [0x20]))
  match skipSpace rest with
  | [] => pure j
  | b :: _ => .error (.unexpected b .afterValue)

end ContractNet.Json
