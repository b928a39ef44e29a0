import ContractNet.Yaml.Cursor

/-!
# Comments

Comments mean nothing, but they belong to something.  Comments on lines of their own are read
together, with the empty lines between them.  They stand *above* the token after them, unless they
are the foot of what is before them: because they stand directly below it and an empty line follows,
because they are not indented as deep as the present collection, or because a bracket closes.

`CursorM.skipComments` moves on over such comments and tells which of them stand above the next
token; `CursorM.skipLineComment` moves on over a comment after a token on its line.
-/

namespace ContractNet.Yaml

/-- Comments that stand above a token. -/
structure CommentsAbove where
  /-- The place in the stream where they start. -/
  index : Nat
  /-- An empty line follows them. -/
  apart : Bool

/-- Where comments on lines of their own are met. -/
structure CommentPlace where
  /-- Brackets are open. -/
  inFlow : Bool
  /-- The column of the present block collection. -/
  margin : Nat
  /-- The token before them is the colon of a value. -/
  afterValue : Bool
  /-- The line on which the token before them ends, or a later one that it reaches to. -/
  lineBefore : Nat

/-- Comments that have been read together. -/
structure CommentGroup where
  /-- Where they start; nothing if there are none that stand above the next token. -/
  start : Option Mark := none
  /-- The line of a comment that stands directly below what is before it. -/
  footLine : Option Nat
  /-- No empty line has been met. -/
  dense : Bool
  /-- The last line is empty. -/
  inGap : Bool := false
  /-- An empty line follows the last comment. -/
  apart : Bool := false

namespace CommentGroup

/-- No comments yet, at the first of them. -/
def ofCursor (p : CommentPlace) (c : Cursor) : CommentGroup where
  footLine :=
    if p.lineBefore = 0 then none
    else some (c.mark.line + 1 - c.newlines + if c.newlines = 0 && 1 < c.column then 1 else 0)
  dense := c.newlines ≤ 1

/-- The comments are a foot, if an empty line follows them. -/
def isFoot (g : CommentGroup) (p : CommentPlace) : Bool :=
  g.start.any fun m => (g.footLine = some m.line && !p.afterValue) || m.column < p.margin

/-- The group at the end of a line or of the stream that is empty after the comments. -/
def atLineEnd (g : CommentGroup) (p : CommentPlace) (c : Char) : CommentGroup :=
  if g.inGap then g
  else if g.dense && g.isFoot p then { g with start := none }
  else { g with apart := g.apart || !isEnd c }

/-- The group after an empty line. -/
def afterGap (g : CommentGroup) : CommentGroup := { g with dense := false, inGap := true }

/-- The group when something else stands at a column: if that column is left of the margin, the
comments have to stand at the same one. -/
def atColumn (g : CommentGroup) (p : CommentPlace) (column : Nat) : CommentGroup :=
  if g.start.any fun m => column < p.margin && column ≠ m.column then { g with start := none }
  else g

/-- The group with a comment at a place. -/
def add (g : CommentGroup) (m : Mark) : CommentGroup :=
  { g with start := g.start.or (some m), inGap := false, apart := false }

/-- The comments that stand above the next token. -/
def above (g : CommentGroup) : Option CommentsAbove := g.start.map fun m => ⟨m.index, g.apart⟩

end CommentGroup

namespace CursorM

/-- How far ahead a comment is looked for. -/
def commentReach : Nat := 512

/-- Move on to the end of the comment that stands at a place or after it. -/
def skipComment (index : Nat) : Nat → CursorM Unit
  | 0 => pure ()
  | fuel + 1 => do
    ensure 1
    if isLineEnd (← next) then
      if (← mark).index < index then
        ensure 2
        modify Cursor.passBreak
        skipComment index fuel
    else
      skip
      skipComment index fuel

/-- Look for another comment after the next `k` characters, of which the last stands before a column
of a line.  A line end of more than one byte ends the search by one character later. -/
def nextComment (p : CommentPlace) : Nat → Nat → Nat → Nat → CommentGroup →
    CursorM (CommentGroup × Option Mark)
  | 0, _, _, _, g => pure (g, none)
  | fuel + 1, k, line, column, g => do
    if ← tryEnsure (k + 1) then
      let c ← look k
      if isBlank c then nextComment p fuel (k + 1) line (column + 1) g
      else if c = '\n' || c = '\r' then
        nextComment p fuel (k + 1) (line + 1) 0 (g.atLineEnd p c).afterGap
      else if isBreak c then
        let g := (g.atLineEnd p c).afterGap
        if fuel ≠ 0 && (← tryEnsure (k + 2)) then pure (g.atColumn p 0, none) else pure (g, none)
      else if isEnd c then pure (g.atLineEnd p c, none)
      else if p.inFlow && (c = ']' || c = '\x7d') then pure ({ g with start := none }, none)
      else
        let g := g.atColumn p column
        if c = '#' then
          let m : Mark := ⟨(← mark).index + k, line, column⟩
          pure (g.add m, some m)
        else pure (g, none)
    else pure (g, none)

/-- Look for another comment after the end of one. -/
def commentAfter (p : CommentPlace) (g : CommentGroup) :
    CursorM (CommentGroup × Option Mark) := do
  let c ← next
  if c = '\n' || c = '\r' || isEnd c then
    nextComment p (commentReach - 1) 1 (← mark).line 0 g
  else if ← tryEnsure 2 then pure (g.atColumn p 0, none)
  else pure (g, none)

/-- Move on over a comment, and over others that follow it with only blanks and line ends between
them, to the end of the line of the last one. -/
def skipComments (p : CommentPlace) : CursorM (Option CommentsAbove) := do
  let c ← get
  go c.bound c.mark.index ((CommentGroup.ofCursor p c).add c.mark)
where
  /-- The same for no more than `fuel` comments, of which the next stands at a place. -/
  go : Nat → Nat → CommentGroup → CursorM (Option CommentsAbove)
    | 0, _, g => pure g.above
    | fuel + 1, index, g => do
      skipComment index (← get).bound
      match ← commentAfter p g with
      | (g, some m) => go fuel m.index g
      | (g, none) => pure g.above

/-- Look for a comment on the present line after the next `k` characters, which are blanks. -/
def lineCommentAhead : Nat → Nat → CursorM (Option Nat)
  | 0, _ => pure none
  | fuel + 1, k => do
    if ← tryEnsure (k + 1) then
      let c ← look k
      if isBlank c then lineCommentAhead fuel (k + 1)
      else pure (if c = '#' then some k else none)
    else pure none

/-- Move on over a comment on the present line, if only blanks stand before it. -/
def skipLineComment : CursorM Unit := do
  if (← get).newlines = 0 then
    if let some k ← lineCommentAhead commentReach 0 then
      skipComment ((← mark).index + k) (← get).bound

end CursorM

end ContractNet.Yaml
