import Std.Data.HashMap
import ContractNet.Yaml.Comment
import ContractNet.Yaml.Tag

/-!
# Tokens of a YAML stream

`ScanM.peek` tells the next token of a stream and `ScanM.advance` moves on to the one after it.
Indentation becomes tokens too: a block collection starts where a deeper column is reached and ends
where a less deep one is.

A key of a mapping is only known as one when the `:` after it is met.  So the scan keeps, for the
block outside of all brackets and for every open bracket, the last place where such a key may have
started (`KeyStart`); at the `:` the tokens that announce the key are put in at that place.  That is
why tokens are read ahead: two of them in any case, and more while the present one may still turn
out to start a key.
-/

namespace ContractNet.Yaml

open CursorM

/-- What a token says. -/
inductive TokenKind where
  | streamStart
  | streamEnd
  | directive (d : Directive)
  | documentStart
  | documentEnd
  | blockSequence
  | blockMapping
  | blockEnd
  | flowSequence
  | flowSequenceEnd
  | flowMapping
  | flowMappingEnd
  | blockEntry
  | flowEntry
  | key
  | value
  | reference (name : Text)
  | anchor (name : Text)
  | tag (t : Tag)
  | scalar (value : Text) (style : ScalarStyle)
deriving DecidableEq

/-- A token with the place where it starts. -/
structure Token where
  kind : TokenKind
  mark : Mark := {}
deriving DecidableEq

/-- The line on which the token starts, counted from zero. -/
def Token.line (t : Token) : Nat := t.mark.line

/-- A place where a key may have started. -/
structure KeyStart where
  /-- A key may still have started there. -/
  possible : Bool := false
  /-- Nothing else can stand there: a line of a block mapping. -/
  needed : Bool := false
  /-- The number of tokens before it. -/
  number : Nat := 0
  mark : Mark := {}

/-- How far a stream has been scanned. -/
structure Scan where
  cursor : Cursor
  /-- The tokens that have been read and not been passed. -/
  queue : List Token := []
  /-- The number of tokens that have been passed. -/
  passed : Nat := 0
  /-- The column of the present block collection, -1 outside of all. -/
  indent : Int := -1
  /-- The columns of the collections around it, the innermost last. -/
  outer : Array Int := #[]
  /-- Where a key may have started: in the block and in each open bracket, the innermost last.
  There are none before the start of the stream. -/
  keys : Array KeyStart := #[]
  /-- Tokens that are not told while a key may have started there, with the level of that key. -/
  watched : Std.HashMap Nat Nat := {}
  /-- A key may start here. -/
  keyAllowed : Bool := true
  /-- Comments that stand above tokens that nobody has asked for. -/
  comments : List CommentsAbove := []
  /-- How often comments stand above the present token or above what belongs to it. -/
  above : Nat := 0
  /-- An empty line follows the last of those comments. -/
  apart : Bool := false

/-- A step of scanning; the scan is kept when it fails. -/
abbrev ScanM := EStateM Fault Scan

/-- A step over the stream as a step of scanning. -/
instance cursorToScan : MonadLift CursorM ScanM where
  monadLift x s := match x s.cursor with
    | .ok a c => .ok a { s with cursor := c }
    | .error e c => .error e { s with cursor := c }

namespace Scan

/-- The start of a text. -/
def ofText (t : Text) : Scan := { cursor := .ofText t }

/-- Brackets are open. -/
def inFlow (s : Scan) : Bool := 1 < s.keys.size

/-- Where a key of the present level may have started. -/
def key (s : Scan) : KeyStart := s.keys.back?.getD {}

/-- The number of the next token to be read. -/
def number (s : Scan) : Nat := s.passed + s.queue.length

/-- Change where a key of the present level may have started. -/
def setKey (s : Scan) (k : KeyStart) : Scan := { s with keys := s.keys.pop.push k }

/-- Append a token. -/
def push (s : Scan) (t : Token) : Scan := { s with queue := s.queue ++ [t] }

/-- The last token that has been read, or the one before if that is a comma, is the colon of a
value. -/
def afterValue (s : Scan) : Bool :=
  match s.queue.reverse.map Token.kind with
  | .flowEntry :: k :: _ => k = .value
  | k :: _ => k = .value
  | [] => false

/-- Put a token in before the one with a number; if that one has been passed, append it. -/
def insert (s : Scan) (number : Nat) (t : Token) : Scan :=
  if number < s.passed then s.push t
  else { s with queue := s.queue.insertIdx (number - s.passed) t }

/-- End the block collections that are deeper than a column. -/
def unrollFrom (column : Int) : Nat → Scan → Scan
  | 0, s => s
  | n + 1, s =>
    if column < s.indent then
      let s := s.push { kind := .blockEnd }
      unrollFrom column n { s with indent := s.outer.back?.getD (-1), outer := s.outer.pop }
    else s

/-- End the block collections that are deeper than a column, unless brackets are open. -/
def unroll (s : Scan) (column : Int) : Scan :=
  if s.inFlow then s else unrollFrom column s.outer.size s

/-- The comments before a token stand above it, unless it is the end of a block collection. -/
def unfold (s : Scan) (t : Token) : Scan :=
  let (now, later) := s.comments.span fun c => t.kind ≠ .blockEnd && c.index ≤ t.mark.index
  { s with
    comments := later
    above := s.above + now.length
    apart := (now.getLast?.map CommentsAbove.apart).getD s.apart }

end Scan

namespace ScanM

/-! ### Keys -/

/-- How deep brackets or block collections may be nested. -/
def maxDepth : Nat := 10000

/-- How long a key may be. -/
def maxKeyLength : Nat := 1024

/-- Whether a key that started at a level may still be met: it is on the same line and not too long.
That a needed one is not met is a fault. -/
def isLive (level : Nat) : ScanM Bool := do
  let s ← get
  let m ← mark
  match s.keys[level]? with
  | none => pure false
  | some k =>
    if !k.possible then pure false
    else if k.mark.line < m.line || k.mark.index + maxKeyLength < m.index then
      if k.needed then fail .keyWithoutColon k.mark
      else
        set { s with keys := s.keys.setIfInBounds level { k with possible := false } }
        pure false
    else pure true

/-- Give up the key of the present level; that is a fault if one was needed. -/
def dropKey : ScanM Unit := do
  let k := (← get).key
  if k.possible then
    if k.needed then fail .keyWithoutColon k.mark
    else modify fun s =>
      { s.setKey { k with possible := false } with watched := s.watched.erase k.number }

/-- A key may start here, if one is allowed. -/
def saveKey : ScanM Unit := do
  let s ← get
  if s.keyAllowed then
    let m ← mark
    let needed := !s.inFlow && s.indent = m.column
    dropKey
    modify fun s =>
      { s.setKey ⟨true, needed, s.number, m⟩ with
        watched := s.watched.insert s.number (s.keys.size - 1) }

/-- Say whether a key may start here. -/
def allowKey (b : Bool) : ScanM Unit := modify fun s => { s with keyAllowed := b }

/-! ### Tokens of structure -/

/-- Move on over the next `n` characters, which make up a token. -/
def take (n : Nat) (k : TokenKind) : ScanM Unit := do
  let m ← mark
  skipMany n
  modify fun s => s.push ⟨k, m⟩

/-- Start a block collection at a place, if it is deeper than the present one.  Its token comes
before the one with the given number. -/
def roll (m : Mark) (number : Nat) (k : TokenKind) : ScanM Unit := do
  let s ← get
  if !s.inFlow && s.indent < m.column then
    set { s with indent := m.column, outer := s.outer.push s.indent }
    if maxDepth < (← get).outer.size then fail .tooDeep s.key.mark
    else modify fun s => s.insert number ⟨k, m⟩

/-- Start a block collection here, if it is deeper than the present one. -/
def rollHere (k : TokenKind) : ScanM Unit := do
  roll (← mark) (← get).number k

/-- End all block collections, and the key of the block. -/
def endBlocks : ScanM Unit := do
  modify fun s => s.unroll (-1)
  dropKey
  allowKey false

/-- The end of the stream, which stands at the start of a line. -/
def fetchEnd : ScanM Unit := do
  modify fun s =>
    let m := s.cursor.mark
    if m.column = 0 then s else { s with cursor.mark := ⟨m.index, m.line + 1, 0⟩ }
  endBlocks
  take 0 .streamEnd

/-- A directive. -/
def fetchDirective : ScanM Unit := do
  endBlocks
  let m ← mark
  let d ← readDirective
  modify fun s => s.push ⟨.directive d, m⟩

/-- A document mark. -/
def fetchDocumentMark (k : TokenKind) : ScanM Unit := do
  endBlocks
  take 3 k

/-- An opening bracket. -/
def fetchFlowStart (k : TokenKind) : ScanM Unit := do
  saveKey
  let m ← mark
  modify fun s => { s with keys := s.keys.push { number := s.number, mark := m } }
  if maxDepth + 1 < (← get).keys.size then fail .tooDeep m
  else
    allowKey true
    take 1 k

/-- A closing bracket.  What may have been a key of its level is not watched any more. -/
def fetchFlowEnd (k : TokenKind) : ScanM Unit := do
  dropKey
  modify fun s =>
    if s.inFlow then { s with keys := s.keys.pop, watched := s.watched.erase s.key.number } else s
  allowKey false
  take 1 k

/-- A comma between brackets. -/
def fetchFlowEntry : ScanM Unit := do
  dropKey
  allowKey true
  take 1 .flowEntry

/-- In a block, something may only stand where a key may start, and is otherwise a problem. -/
def needKeyPlace (p : Problem) : ScanM Unit := do
  let s ← get
  if !s.inFlow && !s.keyAllowed then fail p s.cursor.mark

/-- A dash before an item. -/
def fetchBlockEntry : ScanM Unit := do
  needKeyPlace .entryNotAllowed
  rollHere .blockSequence
  dropKey
  allowKey true
  take 1 .blockEntry

/-- A question mark before a key. -/
def fetchKey : ScanM Unit := do
  needKeyPlace .keyNotAllowed
  rollHere .blockMapping
  dropKey
  allowKey !(← get).inFlow
  take 1 .key

/-- A colon before a value.  A key that started on this line is announced now. -/
def fetchValue : ScanM Unit := do
  let k := (← get).key
  if ← isLive ((← get).keys.size - 1) then
    modify fun s => s.insert k.number ⟨.key, k.mark⟩
    roll k.mark k.number .blockMapping
    modify fun s =>
      { s.setKey { k with possible := false } with watched := s.watched.erase k.number }
    allowKey false
  else
    needKeyPlace .valueNotAllowed
    rollHere .blockMapping
    allowKey !(← get).inFlow
  take 1 .value

/-! ### Tokens of content -/

/-- A token with content that may start a key; a key does not start directly after it. -/
def fetchContent (read : CursorM TokenKind) : ScanM Unit := do
  saveKey
  allowKey false
  let m ← mark
  let k ← read
  modify fun s => s.push ⟨k, m⟩

/-- A scalar in quotes. -/
def fetchQuoted (single : Bool) : ScanM Unit :=
  fetchContent do
    let cs ← readQuoted single
    pure (.scalar (Text.ofChars cs) (if single then .singleQuoted else .doubleQuoted))

/-- A plain scalar.  A key may start after it, if a line end follows it. -/
def fetchPlain : ScanM Unit := do
  saveKey
  allowKey false
  let m ← mark
  let s ← get
  let (cs, broken) ← readPlain s.inFlow (s.indent + 1)
  modify fun s => s.push ⟨.scalar (Text.ofChars cs) .plain, m⟩
  if broken then allowKey true

/-- A block scalar. -/
def fetchBlock (isLiteral : Bool) : ScanM Unit := do
  dropKey
  allowKey true
  let m ← mark
  let cs ← readBlock isLiteral (← get).indent
  let style : ScalarStyle := if isLiteral then .literal else .folded
  modify fun s => s.push ⟨.scalar (Text.ofChars cs) style, m⟩

/-! ### The next token -/

/-- Move on over comments on lines of their own, after a token that ends on a line. -/
def skipComments (lineBefore : Nat) : ScanM Unit := do
  let s ← get
  let place : CommentPlace := ⟨s.inFlow, s.indent.toNat, s.afterValue, lineBefore⟩
  if let some c ← CursorM.skipComments place then
    modify fun s => { s with comments := s.comments ++ [c] }

/-- Move on to the next token, over blanks, comments and line ends.  In a block, a tab may not stand
where a key may start.  At the start of a line one character is passed if the characters that have
been read started with a byte order mark. -/
def toToken (lineBefore : Nat) : Nat → ScanM Unit
  | 0 => pure ()
  | fuel + 1 => do
    ensure 1
    if (← get).cursor.column = 0 && (← get).cursor.stream.marked then skip
    ensure 1
    let s ← get
    skipWhile fun c => c = ' ' || ((s.inFlow || !s.keyAllowed) && c = '\t')
    if (← next) = '#' then skipComments lineBefore
    if isBreak (← next) then
      skipBreak
      if !s.inFlow then allowKey true
      toToken lineBefore fuel

/-- A character that means something else than the start of a plain scalar. -/
def isMark (c : Char) : Bool :=
  c = '-' || c = '?' || c = ':' || c = ',' || c = '[' || c = ']' || c = '\x7b' || c = '\x7d' ||
    c = '#' || c = '&' || c = '*' || c = '!' || c = '|' || c = '>' || c = '\x27' || c = '"' ||
    c = '%' || c = '@' || c.toNat = 0x60

/-- A plain scalar can start with a character, when `d` follows. -/
def startsPlain (inFlow : Bool) (c d : Char) : Bool :=
  !(isGap c || isMark c) || (c = '-' && !isBlank d) ||
    (!inFlow && (c = '?' || c = ':') && !isGap d)

/-- The token that starts with `c`, when `d` follows. -/
def fetchAt (inFlow : Bool) (c d : Char) : ScanM Unit :=
  if c = '[' then fetchFlowStart .flowSequence
  else if c = '\x7b' then fetchFlowStart .flowMapping
  else if c = ']' then fetchFlowEnd .flowSequenceEnd
  else if c = '\x7d' then fetchFlowEnd .flowMappingEnd
  else if c = ',' then fetchFlowEntry
  else if c = '?' && (inFlow || isGap d) then fetchKey
  else if c = ':' && (inFlow || isGap d) then fetchValue
  else if c = '*' then fetchContent (.reference <$> readName)
  else if c = '&' then fetchContent (.anchor <$> readName)
  else if c = '!' then fetchContent (.tag <$> readTag)
  else if c = '|' && !inFlow then fetchBlock true
  else if c = '>' && !inFlow then fetchBlock false
  else if c = '\x27' then fetchQuoted true
  else if c = '"' then fetchQuoted false
  else if startsPlain inFlow c d then fetchPlain
  else do fail .noTokenStart (← mark)

/-- Scan a token.  A comment on its line belongs to it, unless it is the dash of an item. -/
def fetch : ScanM Unit := do
  ensure 1
  if (← get).keys.isEmpty then
    modify fun s => { s with keys := #[{}] }
    take 0 .streamStart
  else
    toToken (← mark).line (← get).cursor.bound
    modify fun s => s.unroll s.cursor.column
    ensure 4
    let s ← get
    let c := s.cursor.next
    let d := s.cursor.stream.look 1
    if isEnd c then fetchEnd
    else if s.cursor.column = 0 && c = '%' then fetchDirective
    else if s.cursor.atDocumentMark then
      fetchDocumentMark (if c = '-' then .documentStart else .documentEnd)
    else if c = '-' && isGap d then fetchBlockEntry
    else
      fetchAt s.inFlow c d
      skipLineComment

/-- Tokens enough have been read ahead. -/
def isReady : ScanM Bool := do
  let s ← get
  if s.queue.length ≤ 2 then pure false
  else match s.watched[s.passed]? with
    | some level => pure !(← isLive level)
    | none => pure true

/-- Read tokens ahead. -/
def readAhead : Nat → ScanM Unit
  | 0 => pure ()
  | fuel + 1 => do
    if !(← isReady) then
      fetch
      readAhead fuel

/-- The next token. -/
def peek : ScanM Token := do
  readAhead (← get).cursor.bound
  let t := (← get).queue.headD { kind := .streamEnd }
  modify fun s => s.unfold t
  pure t

/-- Move on to the next token. -/
def advance : ScanM Unit :=
  modify fun s => { s with queue := s.queue.tail, passed := s.passed + 1 }

/-- Forget the comments above a part that is complete. -/
def dropComments : ScanM Unit := modify fun s => { s with above := 0, apart := false }

/-- Forget the comments above the first part of a document, if an empty line follows them: they
belong to the document. -/
def dropApart : ScanM Unit := do
  if (← get).apart then dropComments

/-- Move on over the dash of an item.  Comments above it belong to a collection that starts there
rather than to the first part of that; to find out, the next token is looked at, and a fault on the
way is kept. -/
def passDash : ScanM Unit := do
  let above := (← get).above
  advance
  if above ≠ 0 then
    try
      let t ← peek
      if t.kind = .blockSequence || t.kind = .blockMapping then
        modify fun s => { s with above := s.above - above }
    catch f => modify fun s => { s with cursor.pending := some f }

/-- Fail if a fault has been kept. -/
def settle : ScanM Unit := do
  match (← get).cursor.pending with
  | some f => throw f
  | none => pure ()

end ScanM

end ContractNet.Yaml
