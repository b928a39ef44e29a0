import ContractNet.Text.Utf8

/-!
# Tables

`Text.table` lines up cells.  A tab, level or vertical, ends a cell; what stands after the last tab
of a line belongs to no column.  Lines that follow one another and have a cell in a column make up a
block, whose cells are as wide as the widest of them and two spaces more.  A form feed ends a line
and the section that it is in: no block goes across sections.
-/

namespace ContractNet.Text

/-- The number of characters of a text; a stray byte counts as one. -/
def width (t : Text) : Nat := t.pieces.length

/-- The spaces after the widest cell of a column. -/
def columnGap : Nat := 2

/-- The cells of a line. -/
abbrev Line := List Text

/-- The line has a first cell that a tab ends. -/
def hasColumn (l : Line) : Bool := 1 < l.length

/-- The cell at the front, filled up with spaces to a width. -/
def fillTo (w : Nat) (t : Text) : Text := t ++ List.replicate (w - width t) ' '.toUInt8

/-- The lines at the front that have a cell in the first column. -/
def block (ls : List Line) : List Line := ls.takeWhile hasColumn

/-- The width of a block: that of its widest cell and the gap. -/
def blockWidth (ls : List Line) : Nat :=
  (ls.map fun l => width (l.headD [])).foldl max 0 + columnGap

/-- The lines with their cells lined up, column by column; `fuel` bounds the number of blocks. -/
def lineUp : Nat → List Line → List Text
  | 0, _ => []
  | _ + 1, [] => []
  | fuel + 1, l :: ls =>
    if hasColumn l then
      let b := block (l :: ls)
      let w := blockWidth b
      let firsts := b.map fun c => fillTo w (c.headD [])
      let others := lineUp fuel (b.map (List.drop 1))
      List.zipWith (· ++ ·) firsts others ++ lineUp fuel ((l :: ls).drop b.length)
    else l.flatten :: lineUp fuel ls

/-- The number of cells. -/
def cellCount (ls : List Line) : Nat := ls.flatten.length

/-- The vertical tab, which ends a cell. -/
def verticalTab : UInt8 := 0x0b

/-- The form feed, which ends a section. -/
def formFeed : UInt8 := 0x0c

/-- A text without line ends as the cells of a line. -/
def cells (t : Text) : Line := (splitAt '\t' t).flatMap (splitAt verticalTab)

/-- The lines of a section with their cells lined up. -/
def sectionLines (t : Text) : List Text :=
  let lines := (splitAt '\n' t).map cells
  lineUp (cellCount lines + 1) lines

/-- A text of sections with the cells of each lined up; every line ends with a line feed. -/
def table (t : Text) : Text := join "\n" ((splitAt formFeed t).flatMap sectionLines)

end ContractNet.Text
