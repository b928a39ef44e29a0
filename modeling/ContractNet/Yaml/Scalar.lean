import ContractNet.Yaml.Cursor

/-!
# Scalars of a YAML stream

Each kind of scalar is read from the cursor on:

* `readPlain` reads a scalar without quotes, which ends where something else can begin;
* `readQuoted` reads up to the closing quote;
* `readBlock` reads the indented lines after `|` or `>`.

A line end inside a plain or quoted scalar is folded: alone it is a space, and further line ends
stay.  `Gap` collects the blanks and line ends since the last character that counts.  Texts that
are still growing are kept last character first.
-/

namespace ContractNet.Yaml

open CursorM

/-- How a scalar was written. -/
inductive ScalarStyle where
  | plain | singleQuoted | doubleQuoted | literal | folded
deriving DecidableEq

/-! ### Folding -/

/-- Blanks and line ends between two parts of a scalar. -/
structure Gap where
  /-- Blanks on the line of the part before, last first. -/
  blanks : List Char := []
  /-- There was a line end. -/
  broken : Bool := false
  /-- The first line end, unless a backslash took it away. -/
  first : Option Char := none
  /-- The line ends after the first, last first. -/
  more : List Char := []

namespace Gap

/-- One more blank: those at the start of a line do not count. -/
def addBlank (g : Gap) (c : Char) : Gap :=
  if g.broken then g else { g with blanks := c :: g.blanks }

/-- One more line end. -/
def addBreak (g : Gap) (c : Char) : Gap :=
  if g.broken then { g with more := c :: g.more } else ⟨[], true, some c, []⟩

/-- A line end that a backslash takes away. -/
def escaped : Gap := ⟨[], true, none, []⟩

/-- What stands for the gap in the scalar, last first. -/
def folded (g : Gap) : List Char :=
  if g.broken then
    match g.first with
    | some '\n' => if g.more.isEmpty then [' '] else g.more
    | some c => g.more ++ [c]
    | none => g.more
  else g.blanks

end Gap

/-- Read blanks and line ends in a scalar that starts at `start`.  At the start of a line a tab may
not stand left of the margin. -/
def readGap (start : Mark) (margin : Int) : Nat → Gap → CursorM Gap
  | 0, g => pure g
  | fuel + 1, g => do
    let c ← next
    if isBlank c then
      if g.broken && c = '\t' && (← get).column < margin then fail .tabInPlain start
      else
        skip
        ensure 1
        readGap start margin fuel (g.addBlank c)
    else if isBreak c then
      ensure 2
      let b ← readBreak
      ensure 1
      readGap start margin fuel (g.addBreak b)
    else pure g

/-! ### Plain scalars -/

/-- Characters that end a plain scalar inside brackets. -/
def isFlowEnd (c : Char) : Bool :=
  c = ',' || c = '?' || c = '[' || c = ']' || c = '\x7b' || c = '\x7d'

/-- Read a plain scalar up to its next gap or its end. -/
def readWord (inFlow : Bool) : Nat → List Char → CursorM (List Char)
  | 0, cs => pure cs
  | fuel + 1, cs => do
    let c ← next
    let d ← look 1
    if isGap c || (c = ':' && isGap d) || (inFlow && isFlowEnd c) then pure cs
    else
      skip
      ensure 2
      readWord inFlow fuel (c :: cs)

/-- The parts of a plain scalar after those in `cs` and the gap `g`.  With the scalar comes whether
it is followed by a line end. -/
def plainParts (start : Mark) (inFlow : Bool) (margin : Int) :
    Nat → Gap → List Char → CursorM (List Char × Bool)
  | 0, g, cs => pure (cs, g.broken)
  | fuel + 1, g, cs => do
    ensure 4
    if (← get).atDocumentMark || (← next) = '#' then pure (cs, g.broken)
    else
      let word ← readWord inFlow (← get).bound []
      let (g, cs) := if word.isEmpty then (g, cs) else ({}, word ++ (g.folded ++ cs))
      let c ← next
      if isBlank c || isBreak c then
        ensure 1
        let g ← readGap start margin (← get).bound g
        if !inFlow && (← get).column < margin then pure (cs, g.broken)
        else plainParts start inFlow margin fuel g cs
      else pure (cs, g.broken)

/-- Read a plain scalar, and tell whether a line end follows it.  Inside brackets indentation does
not matter; otherwise a line that starts left of the margin ends it. -/
def readPlain (inFlow : Bool) (margin : Int) : CursorM (List Char × Bool) := do
  let start ← mark
  let (cs, broken) ← plainParts start inFlow margin (← get).bound {} []
  pure (cs.reverse, broken)

/-! ### Quoted scalars -/

/-- The character that a backslash and a letter stand for. -/
def simpleEscape? : Char → Option Char
  | '0' => some '\x00'
  | 'a' => some '\x07'
  | 'b' => some '\x08'
  | 't' => some '\t'
  | '\t' => some '\t'
  | 'n' => some '\n'
  | 'v' => some '\x0b'
  | 'f' => some '\x0c'
  | 'r' => some '\r'
  | 'e' => some '\x1b'
  | ' ' => some ' '
  | '"' => some '"'
  | '\x27' => some '\x27'
  | '\\' => some '\\'
  | 'N' => some '\u0085'
  | '_' => some '\u00a0'
  | 'L' => some '\u2028'
  | 'P' => some '\u2029'
  | _ => none

/-- The number of hexadecimal digits after a backslash and a letter. -/
def codeLength? : Char → Option Nat
  | 'x' => some 2
  | 'u' => some 4
  | 'U' => some 8
  | _ => none

/-- The value of a hexadecimal digit. -/
def hexValue? (c : Char) : Option Nat := if c.toNat < 128 then Text.hexDigit? c.toUInt8 else none

/-- Read the digits of a character number in a scalar that starts at `start`. -/
def readCode (start : Mark) (length : Nat) : CursorM Char := do
  ensure length
  let digits := (← get).stream.ahead.take length
  match digits.mapM hexValue? with
  | some ds =>
    let code := ds.foldl (fun n d => 16 * n + d) 0
    if ds.length < length then fail .noHexadecimal start
    else if code.isValidChar then
      skipMany length
      pure (Char.ofNat code)
    else fail .badCharacterCode start
  | none => fail .noHexadecimal start

/-- Read a backslash and what belongs to it. -/
def readEscape (start : Mark) : CursorM Char := do
  let c ← look 1
  match simpleEscape? c, codeLength? c with
  | some e, _ =>
    skipMany 2
    pure e
  | none, some n =>
    skipMany 2
    readCode start n
  | none, none => fail .unknownEscape start

/-- The quotation marks of the two kinds of quoted scalars. -/
def quoteOf (single : Bool) : Char := if single then '\x27' else '"'

/-- Read a quoted scalar up to its next gap or its last quote, and tell whether a backslash took the
next line end away. -/
def readQuotedWord (start : Mark) (single : Bool) :
    Nat → List Char → CursorM (List Char × Bool)
  | 0, cs => pure (cs, false)
  | fuel + 1, cs => do
    let c ← next
    let d ← look 1
    if isGap c then pure (cs, false)
    else if single && c = '\x27' && d = '\x27' then
      skipMany 2
      ensure 2
      readQuotedWord start single fuel ('\x27' :: cs)
    else if c = quoteOf single then pure (cs, false)
    else if !single && c = '\\' && isBreak d then
      ensure 3
      skip
      modify Cursor.passBreak
      pure (cs, true)
    else if !single && c = '\\' then
      let e ← readEscape start
      ensure 2
      readQuotedWord start single fuel (e :: cs)
    else
      skip
      ensure 2
      readQuotedWord start single fuel (c :: cs)

/-- The parts of a quoted scalar after those in `cs`, and its last quote. -/
def quotedParts (start : Mark) (single : Bool) : Nat → List Char → CursorM (List Char)
  | 0, cs => pure cs
  | fuel + 1, cs => do
    ensure 4
    if (← get).atDocumentMark then fail .documentMarkInQuotes start
    else if isEnd (← next) then fail .endInQuotes start
    else
      let (cs, joined) ← readQuotedWord start single (← get).bound cs
      ensure 1
      if (← next) = quoteOf single then
        skip
        pure cs
      else
        let g ← readGap start 0 (← get).bound (if joined then .escaped else {})
        quotedParts start single fuel (g.folded ++ cs)

/-- Read a scalar in quotes. -/
def readQuoted (single : Bool) : CursorM (List Char) := do
  let start ← mark
  skip
  pure (← quotedParts start single (← get).bound []).reverse

/-! ### Block scalars -/

/-- What happens to the line ends at the end of a block scalar. -/
inductive Chomping where
  | strip | clip | keep
deriving DecidableEq

/-- What the first line of a block scalar says after its mark. -/
structure BlockHeader where
  chomping : Chomping := .clip
  /-- The extra indentation of the lines, if it is told. -/
  increment : Option Nat := none

/-- The chomping that a character asks for. -/
def chomping? : Char → Option Chomping
  | '+' => some .keep
  | '-' => some .strip
  | _ => none

/-- Read a digit above zero, if a digit comes next. -/
def readIncrement (start : Mark) : CursorM (Option Nat) := do
  let c ← next
  if c = '0' then fail .zeroIndentation start
  else if c.isDigit then
    skip
    pure (some (c.toNat - '0'.toNat))
  else pure none

/-- Read the two hints, in any order. -/
def readHints (start : Mark) : CursorM BlockHeader := do
  match chomping? (← next) with
  | some ch =>
    skip
    ensure 1
    pure ⟨ch, ← readIncrement start⟩
  | none =>
    match ← readIncrement start with
    | none => pure {}
    | some n =>
      ensure 1
      match chomping? (← next) with
      | some ch =>
        skip
        pure ⟨ch, some n⟩
      | none => pure ⟨.clip, some n⟩

/-- Read the empty lines before a line with text, and the margin of that line.  The indentation of
the scalar is zero as long as it is not known; then the deepest of these lines tells it, but it is
deeper than that of the collection around it, `outer`. -/
def readMargin (start : Mark) (outer : Int) (indent : Nat) :
    Nat → Nat → List Char → CursorM (Nat × List Char)
  | 0, _, breaks => pure (indent, breaks)
  | fuel + 1, deepest, breaks => do
    ensure 1
    skipSpaces (← get).bound
    let c ← get
    let deepest := max deepest c.column
    if (indent = 0 || c.column < indent) && c.next = '\t' then fail .tabForIndentation start
    else if isBreak c.next then
      ensure 2
      let b ← readBreak
      readMargin start outer indent fuel deepest (b :: breaks)
    else if indent = 0 then pure (max 1 (max deepest (outer + 1).toNat), breaks)
    else pure (indent, breaks)
where
  /-- Move on over spaces that belong to the margin. -/
  skipSpaces : Nat → CursorM Unit
    | 0 => pure ()
    | fuel + 1 => do
      let c ← get
      if (indent = 0 || c.column < indent) && c.next = ' ' then
        skip
        ensure 1
        skipSpaces fuel

/-- What has been read of a block scalar. -/
structure BlockText where
  /-- The text up to the end of the last line with text, last first. -/
  chars : List Char := []
  /-- The line end after that line. -/
  lineEnd : List Char := []
  /-- The line ends of the empty lines since then, last first. -/
  empties : List Char := []
  /-- The last line with text starts with a blank. -/
  blankStart : Bool := false

namespace BlockText

/-- The whole text, with its line ends by the chomping. -/
def finish (t : BlockText) : Chomping → List Char
  | .strip => t.chars.reverse
  | .clip => (t.lineEnd ++ t.chars).reverse
  | .keep => (t.empties ++ t.lineEnd ++ t.chars).reverse

/-- What stands between two lines with text, last first: their line end is folded unless the scalar
is literal or one of them starts with a blank. -/
def between (t : BlockText) (isLiteral startsBlank : Bool) : List Char :=
  if !isLiteral && !t.blankStart && !startsBlank && t.lineEnd = ['\n'] then
    if t.empties.isEmpty then [' '] else t.empties
  else t.empties ++ t.lineEnd

end BlockText

/-- Read the lines of a block scalar; the margin of the first has been read. -/
def readLines (start : Mark) (isLiteral : Bool) (outer : Int) :
    Nat → Nat → BlockText → CursorM BlockText
  | 0, _, t => pure t
  | fuel + 1, indent, t => do
    let c ← get
    if c.column = indent && !isEnd c.next then
      let blank := isBlank c.next
      let line ← readWhile fun c => !isLineEnd c
      ensure 2
      let lineEnd ← if isBreak (← next) then pure [← readBreak] else pure []
      let (indent, empties) ← readMargin start outer indent (← get).bound 0 []
      let chars := line.reverse ++ (t.between isLiteral blank ++ t.chars)
      readLines start isLiteral outer fuel indent ⟨chars, lineEnd, empties, blank⟩
    else pure t

/-- Read a block scalar in a collection that is indented by `outer`. -/
def readBlock (isLiteral : Bool) (outer : Int) : CursorM (List Char) := do
  let start ← mark
  skip
  ensure 1
  let header ← readHints start
  endLine start
  let indent := match header.increment with
    | some n => n + outer.toNat
    | none => 0
  let (indent, empties) ← readMargin start outer indent (← get).bound 0 []
  let t ← readLines start isLiteral outer (← get).bound indent { empties := empties }
  pure (t.finish header.chomping)

end ContractNet.Yaml
