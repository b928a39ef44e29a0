import ContractNet.Yaml.Scalar

/-!
# Names, tags and directives

A node may carry a name, its anchor, and a tag.  A tag is a handle and a suffix; what a handle
stands for is said by directives at the head of a document.
-/

namespace ContractNet.Yaml

open CursorM

/-! ### Names -/

/-- A character of a name. -/
def isWord (c : Char) : Bool := c.isAlphanum || c = '_' || c = '-'

/-- A character that may stand directly after a name. -/
def endsName (c : Char) : Bool :=
  isGap c || c = '?' || c = ':' || c = ',' || c = ']' || c = '\x7d' || c = '%' || c = '@' ||
    c.toNat = 0x60

/-- Read the mark of an anchor or an alias and its name. -/
def readName : CursorM Text := do
  let start ← mark
  skip
  ensure 1
  let name ← readWhile isWord
  if name.isEmpty || !endsName (← next) then fail .noNameCharacter start
  else pure (Text.ofChars name)

/-! ### Tags -/

/-- A tag as it is written.  Without a handle the suffix is the whole tag. -/
structure Tag where
  handle : Text
  suffix : Text
deriving DecidableEq

/-- A character of a tag besides a percent sign. -/
def isTagChar (c : Char) : Bool :=
  isWord c || c = ';' || c = '/' || c = '?' || c = ':' || c = '@' || c = '&' || c = '=' ||
    c = '+' || c = '$' || c = ',' || c = '.' || c = '!' || c = '~' || c = '*' || c = '\x27' ||
    c = '(' || c = ')' || c = '[' || c = ']'

/-- The byte that a percent sign and two digits stand for, which come next. -/
def lookOctet (start : Mark) : CursorM UInt8 := do
  ensure 3
  match ← next, hexValue? (← look 1), hexValue? (← look 2) with
  | '%', some a, some b => pure (UInt8.ofNat (16 * a + b))
  | _, _, _ => fail .noEscapedOctet start

/-- Read `n` escaped bytes of a character that are not the first. -/
def readTrailing (start : Mark) : Nat → CursorM Text
  | 0 => pure []
  | n + 1 => do
    let b ← lookOctet start
    if isTrailing b then
      skipMany 3
      pure (b :: (← readTrailing start n))
    else fail .trailingEscape start

/-- Read the escaped bytes of a character. -/
def readOctets (start : Mark) : CursorM Text := do
  let b ← lookOctet start
  match octetCount b with
  | 0 => fail .leadingEscape start
  | n + 1 =>
    skipMany 3
    pure (b :: (← readTrailing start n))

/-- Read the text of a tag that starts at `start`.  It may be empty if a part of it has been read
before. -/
def readTagText (start : Mark) (mayBeEmpty : Bool) : CursorM Text := do
  ensure 1
  let t ← go (← get).bound []
  if t.isEmpty && !mayBeEmpty then fail .noTagText start else pure t.reverse
where
  /-- The same with what has been read so far, last first. -/
  go : Nat → Text → CursorM Text
    | 0, t => pure t
    | fuel + 1, t => do
      let c ← next
      if c = '%' then
        let bytes ← readOctets start
        ensure 1
        go fuel (bytes.reverse ++ t)
      else if isTagChar c then
        skip
        ensure 1
        go fuel (c.toUInt8 :: t)
      else pure t

/-- Read a handle: an exclamation mark, a word and another one.  In a tag the last mark may be
missing, in a directive only if there is no word. -/
def readHandle (start : Mark) (inDirective : Bool) : CursorM Text := do
  ensure 1
  if (← next) ≠ '!' then fail .noExclamation start
  else
    skip
    ensure 1
    let word ← readWhile isWord
    let front : Text := "!" ++ Text.ofChars word
    if (← next) = '!' then
      skip
      pure (front ++ "!")
    else if inDirective && !word.isEmpty then fail .noExclamation start
    else pure front

/-- Read a tag. -/
def readTag : CursorM Tag := do
  let start ← mark
  ensure 2
  let tag ← if (← look 1) = '<' then verbatim start else shorthand start
  ensure 1
  if isGap (← next) then pure tag else fail .noWhitespaceOrBreak start
where
  /-- A whole tag in angle brackets. -/
  verbatim (start : Mark) : CursorM Tag := do
    skipMany 2
    let suffix ← readTagText start false
    if (← next) = '>' then
      skip
      pure ⟨[], suffix⟩
    else fail .noTagEnd start
  /-- A handle and a suffix; a handle without its last mark is the usual one and a part of the
  suffix. -/
  shorthand (start : Mark) : CursorM Tag := do
    let handle ← readHandle start false
    if 1 < handle.length && Text.endsWith handle "!" then pure ⟨handle, ← readTagText start false⟩
    else
      let suffix := handle.drop 1 ++ (← readTagText start true)
      pure (if suffix.isEmpty then ⟨[], "!"⟩ else ⟨"!", suffix⟩)

/-! ### Directives -/

/-- What is said at the head of a document. -/
inductive Directive where
  | version (major minor : Nat)
  /-- What a handle stands for. -/
  | handle (name stem : Text)
deriving DecidableEq

/-- Read a number of one or two digits. -/
def readVersionNumber (start : Mark) : CursorM Nat := do
  ensure 1
  if (← next).isDigit then go 2 0 else fail .noVersionNumber start
where
  /-- The number with the given front and no more digits than `left`. -/
  go : Nat → Nat → CursorM Nat
    | 0, n => do if (← next).isDigit then fail .longVersionNumber start else pure n
    | left + 1, n => do
      let c ← next
      if c.isDigit then
        skip
        ensure 1
        go left (10 * n + (c.toNat - '0'.toNat))
      else pure n

/-- Read the two numbers of a version. -/
def readVersion (start : Mark) : CursorM Directive := do
  ensure 1
  skipWhile isBlank
  let major ← readVersionNumber start
  if (← next) ≠ '.' then fail .noVersionPoint start
  else
    skip
    pure (.version major (← readVersionNumber start))

/-- Read a handle and what it stands for. -/
def readHandleMeaning (start : Mark) : CursorM Directive := do
  ensure 1
  skipWhile isBlank
  let name ← readHandle start true
  ensure 1
  if !isBlank (← next) then fail .noWhitespace start
  else
    skipWhile isBlank
    let stem ← readTagText start false
    ensure 1
    if isGap (← next) then pure (.handle name stem) else fail .noWhitespaceOrBreak start

/-- Read a directive with the rest of its line. -/
def readDirective : CursorM Directive := do
  let start ← mark
  skip
  ensure 1
  let name ← readWhile isWord
  if name.isEmpty then fail .noDirectiveName start
  else if !isGap (← next) then fail .badDirectiveName start
  else
    let d ←
      if name = ['Y', 'A', 'M', 'L'] then readVersion start
      else if name = ['T', 'A', 'G'] then readHandleMeaning start
      else fail .unknownDirective start
    endLine start
    pure d

end ContractNet.Yaml
