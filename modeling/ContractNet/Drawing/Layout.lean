import ContractNet.Net.ControlFlow

/-!
# Placing the nodes of a net

Nodes are placed in a grid.  Places that only data arcs touch go in the top row.  Every other
place to which no control arc leads starts a row of its own, in which the nodes that are reached
from it over control arcs follow by their distance.  What is still without a place goes in a last
row.
-/

namespace ContractNet.Drawing

/-- A cell of the grid with the kind of its node. -/
structure Spot where
  column : Nat
  row : Nat
  isPlace : Bool
deriving DecidableEq

namespace Spot

/-- The horizontal coordinate. -/
def x (s : Spot) : Nat := 60 + 110 * s.column

/-- The vertical coordinate. -/
def y (s : Spot) : Nat := 60 + 120 * s.row

end Spot

/-- The spots of nodes, one for each id. -/
abbrev Layout := List (Text × Spot)

namespace Layout

/-- The spot of a node. -/
def spot? (l : Layout) (id : Text) : Option Spot := l.lookup id

/-- The node has a spot. -/
def has (l : Layout) (id : Text) : Bool := (l.spot? id).isSome

/-- Put a node somewhere, also if it was somewhere else. -/
def put (l : Layout) (id : Text) (s : Spot) : Layout :=
  if l.has id then l.map fun e => if e.1 = id then (id, s) else e else l ++ [(id, s)]

end Layout

/-- The top row: places with data arcs and without control arcs. -/
def topRow (p : Page) (isTop : Place → Bool) : Layout :=
  ((p.places.filter isTop).zipIdx).foldl (fun l (q, i) => Layout.put l q.id ⟨i, 0, true⟩) []

/-- Fill a row breadth first with the nodes of a queue, each with its distance; nodes that have a
spot or were `seen` in this row are not entered again.  At most `fuel` nodes are expanded. -/
def fillRow (next : Text → List Text) (isPlace : Text → Bool) (row : Nat) :
    Nat → List Text → List (Text × Nat) → Layout → Layout
  | 0, _, _, l => l
  | _, _, [], l => l
  | fuel + 1, seen, (node, distance) :: waiting, l =>
    let l := l.put node ⟨distance, row, isPlace node⟩
    let new := (next node).eraseDups.filter fun n => !seen.contains n && !l.has n
    fillRow next isPlace row fuel (seen ++ new) (waiting ++ new.map (·, distance + 1)) l

/-- One row for each place that starts one; the number of the next row and the layout. -/
def fillRows (p : Page) (next : Text → List Text) (starts : Place → Bool) (l : Layout) :
    Nat × Layout :=
  let isPlace (id : Text) := p.places.any (·.id = id)
  p.places.foldl (fun (row, l) q =>
    if l.has q.id || !starts q then (row, l)
    else (row + 1, fillRow next isPlace row (p.arcs.length + 1) [q.id] [(q.id, 0)] l)) (1, l)

/-- The last row: nodes without a spot, side by side. -/
def lastRow (row : Nat) (nodes : List (Text × Bool)) (l : Layout) : Layout :=
  (nodes.foldl (fun (column, l) (id, isPlace) =>
    if Layout.has l id then (column, l) else (column + 1, l.put id ⟨column, row, isPlace⟩))
    ((0 : Nat), l)).2

/-- The layout of a page, where control arcs have the inscription `control`. -/
def layout (control : Text) (p : Page) : Layout :=
  let isControl (a : Arc) : Bool := a.inscription = control
  let controls := p.arcs.filter isControl
  let data := p.arcs.filter fun a => !isControl a
  let next (id : Text) := (controls.filter (·.source = id)).map (·.target)
  let hasInput (id : Text) := controls.any (·.target = id)
  let isTop (q : Place) := data.any (fun a => a.source = q.id || a.target = q.id) &&
    !hasInput q.id && (next q.id).isEmpty
  let (row, l) := fillRows p next (fun q => !hasInput q.id) (topRow p isTop)
  lastRow row (p.places.map (fun q => (q.id, true)) ++ p.transitions.map (fun t => (t.id, false))) l

/-- The layout of a net; without a page there is nothing to place. -/
def netLayout (control : Text) (n : Option Net) : Layout :=
  match n.bind (·.page) with
  | some p => layout control p
  | none => []

end ContractNet.Drawing
