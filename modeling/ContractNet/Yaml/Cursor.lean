import ContractNet.Yaml.Stream

/-!
# Moving over a stream

A cursor is a place in a stream.  The operations of `CursorM` look at the characters after it and
move it on; they fail with a fault, and keep the cursor where it was when they failed.

Whoever looks at a character has asked for it by `ensure` before.
-/

namespace ContractNet.Yaml

/-- A place in a stream. -/
structure Cursor where
  stream : Stream
  mark : Mark := {}
  /-- The number of line ends that have been passed with only blanks since. -/
  newlines : Nat := 0
  /-- A fault that was noticed too early, while looking ahead. -/
  pending : Option Fault := none
  /-- More than the characters of the stream. -/
  bound : Nat

/-- A step over a stream. -/
abbrev CursorM := EStateM Fault Cursor

namespace Cursor

/-- The start of a text. -/
def ofText (t : Text) : Cursor where
  stream := .ofText t
  bound := t.length + 8

/-- The column, counted from zero. -/
def column (c : Cursor) : Nat := c.mark.column

/-- The next character. -/
def next (c : Cursor) : Char := c.stream.look 0

/-- A document mark, `---` or `...`, stands here: at the start of a line and before a gap. -/
def atDocumentMark (c : Cursor) : Bool :=
  let thrice (m : Char) : Bool := [0, 1, 2].all (c.stream.look · = m)
  c.column = 0 && (thrice '-' || thrice '.') && isGap (c.stream.look 3)

/-- The cursor after one character, on the same line. -/
def pass (c : Cursor) : Cursor :=
  { c with
    stream := c.stream.next
    mark := { c.mark with index := c.mark.index + 1, column := c.mark.column + 1 }
    newlines := if isBlank c.next then c.newlines else 0 }

/-- The cursor after a line end, which may be a carriage return with a line feed. -/
def passBreak (c : Cursor) : Cursor :=
  if c.next = '\r' && c.stream.look 1 = '\n' then
    { c with stream := c.stream.next.next, mark := ⟨c.mark.index + 2, c.mark.line + 1, 0⟩
             newlines := c.newlines + 1 }
  else
    { c with stream := c.stream.next, mark := ⟨c.mark.index + 1, c.mark.line + 1, 0⟩
             newlines := c.newlines + 1 }

end Cursor

namespace CursorM

/-- Fail in something that starts at `start`. -/
def fail {α : Type} (p : Problem) (start : Mark) : CursorM α := do
  throw (.scanning p start (← get).mark)

/-- Have `n` characters ready. -/
def ensure (n : Nat) : CursorM Unit := fun c =>
  match c.stream.ensure n with
  | (s, none) => .ok () { c with stream := s }
  | (s, some p) => .error ⟨p, 0⟩ { c with stream := s }

/-- Have `n` characters ready if nothing is wrong with them; otherwise keep the fault. -/
def tryEnsure (n : Nat) : CursorM Bool := fun c =>
  match c.stream.ensure n with
  | (s, none) => .ok true { c with stream := s }
  | (s, some p) => .ok false { c with stream := s, pending := some ⟨p, 0⟩ }

/-- The present place. -/
def mark : CursorM Mark := do pure (← get).mark

/-- The next character. -/
def next : CursorM Char := do pure (← get).next

/-- The character after the next `k`. -/
def look (k : Nat) : CursorM Char := do pure ((← get).stream.look k)

/-- Move on over the next character. -/
def skip : CursorM Unit := modify Cursor.pass

/-- Move on over the next `n` characters. -/
def skipMany : Nat → CursorM Unit
  | 0 => pure ()
  | n + 1 => do
    skip
    skipMany n

/-- Move on over a line end and tell the character that it stands for: a line feed, unless it is a
line or paragraph separator. -/
def readBreak : CursorM Char := do
  let c ← next
  modify Cursor.passBreak
  pure (if c = '\u2028' || c = '\u2029' then c else '\n')

/-- Move on over a line end, if one comes next. -/
def skipBreak : CursorM Unit := do
  if isBreak (← next) then
    ensure 2
    modify Cursor.passBreak

/-- Move on over the characters of a class and tell them. -/
def readWhile (p : Char → Bool) : CursorM (List Char) := do
  pure (← go (← get).bound []).reverse
where
  /-- The same with what has been read so far, last first. -/
  go : Nat → List Char → CursorM (List Char)
    | 0, cs => pure cs
    | fuel + 1, cs => do
      let c ← next
      if p c then
        skip
        ensure 1
        go fuel (c :: cs)
      else pure cs

/-- Move on over the characters of a class. -/
def skipWhile (p : Char → Bool) : CursorM Unit := discard (readWhile p)

/-- Move on to the next line, when only blanks and a comment may stand before it in something that
starts at `start`. -/
def endLine (start : Mark) : CursorM Unit := do
  ensure 1
  skipWhile isBlank
  if (← next) = '#' then skipWhile fun c => !isLineEnd c
  if isLineEnd (← next) then skipBreak else fail .noCommentOrBreak start

end CursorM

end ContractNet.Yaml
