import ContractNet.Drawing.Fixed
import ContractNet.Drawing.Layout

/-!
# Drawing nets

`Net.toSvg?` draws a net as an SVG image: places are circles with their marking or a token,
transitions are boxes with their guard, and arcs are arrows.  Arcs between the same nodes are bent
apart (`curve`), so that a read arc and its write arc can be told from one another.
-/

namespace ContractNet.Drawing

/-! ### Texts -/

/-- The five characters of markup, replaced one after the other; the ampersand comes first, since
the replacements hold ampersands. -/
def escapeMarkup (t : Text) : Text :=
  let t := Text.replaceByte '&' "&amp;" t
  let t := Text.replaceByte '<' "&lt;" t
  let t := Text.replaceByte '>' "&gt;" t
  let t := Text.replaceByte 0x22 "&quot;" t
  Text.replaceByte 0x27 "&apos;" t

/-- A text of more than `n` bytes is cut to fewer than `n`, and an ellipsis added. -/
def shorten (n : Nat) (t : Text) : Text :=
  if t.length ≤ n then t else t.take (n - 1) ++ "…"

/-- A coordinate. -/
def coord (x : Float) : Text := fixed 1 x

/-- An attribute with the space before it. -/
def attr (name value : Text) : Text := " " ++ name ++ "=\"" ++ value ++ "\""

/-- An attribute that is a coordinate. -/
def coordAttr (name : Text) (x : Float) : Text := attr name (coord x)

/-- A line of text at a point. -/
def textLine (x y : Float) (cls t : Text) : Text :=
  "<text" ++ coordAttr "x" x ++ coordAttr "y" y ++ attr "class" cls ++ ">" ++ escapeMarkup t ++
    "</text>\n"

/-! ### Places and transitions -/

/-- The label of a node: its name, or else its id. -/
def label (id name : Text) : Text := if name.isEmpty then id else name

/-- A place. -/
def drawPlace (unit : Text) (x y : Float) (p : Place) : Text :=
  let circle := "<circle" ++ attr "id" (escapeMarkup p.id) ++
    coordAttr "cx" x ++ coordAttr "cy" y ++
    coordAttr "r" 16 ++ attr "class" "place" ++ "/>\n"
  let tokens := match p.marking with
    | none => []
    | some m =>
      if m = unit then
        "<circle" ++ coordAttr "cx" x ++ coordAttr "cy" y ++ attr "r" "3" ++
          attr "class" "token-dot" ++ "/>\n"
      else textLine x y "token-text" (shorten 6 m)
  circle ++ tokens ++ textLine x (y + 16 + 6) "label-text" (label p.id p.name)

/-- A transition; an active one can happen at the start. -/
def drawTransition (active : Bool) (x y : Float) (t : Transition) : Text :=
  let box := "<rect" ++ attr "id" (escapeMarkup t.id) ++ coordAttr "x" (x - 15) ++
    coordAttr "y" (y - 15) ++ coordAttr "width" 30 ++ coordAttr "height" 30 ++ coordAttr "rx" 4 ++
    coordAttr "ry" 4 ++
    attr "class" (if active then "transition transition-active" else "transition") ++ "/>\n"
  let labelY := y + 15 + 6
  let guard := match t.guard with
    | none => []
    | some g => textLine x (labelY + 14) "guard-text" g
  box ++ textLine x labelY "label-text" (label t.id t.name) ++ guard

/-- Every input place of the transition starts marked, and there is one. -/
def isActive (p : Page) (id : Text) : Bool :=
  !(p.inputs id).isEmpty &&
    (p.inputs id).all fun a => (p.findPlace? a.source).any (·.marking.isSome)

/-! ### Arcs -/

/-- The key of the arcs from one node to another. -/
def pairKey (source target : Text) : Text := source ++ "->" ++ target

/-- How far the `i`-th arc is bent, in steps.  A single arc is straight.  With arcs in the other
direction the arcs are bent by 1, 2, 3, …, all to their own side; without them by 0, 1, -1, 2,
-2, … -/
def curve (arcs : List Arc) (i : Nat) : Int :=
  match arcs[i]? with
  | none => 0
  | some a =>
    let key := pairKey a.source a.target
    let isKey (k : Text) (b : Arc) : Bool := pairKey b.source b.target = k
    let position := (arcs.take i).countP (isKey key)
    if arcs.any (isKey (pairKey a.target a.source)) then 1 + position
    else if position % 2 = 0 then -(((position + 1) / 2 : Nat) : Int)
    else ((position + 1) / 2 : Nat)

/-- The length of a vector, or 1 for a vector without length. -/
def lengthOr1 (x y : Float) : Float :=
  let d := (x * x + y * y).sqrt
  if d == 0 then 1 else d

/-- The colour of an arc. -/
def arcColour (control : Bool) : Text := if control then "#2a6fb8" else "#cfcfcf"

/-- The space that a node keeps free around its centre. -/
def padding (isPlace : Bool) : Float := if isPlace then 18 else 17

/-- The head of an arrow with its tip at a point, in the direction of a unit vector. -/
def arrowHead (x y dirX dirY : Float) (colour : Text) : Text :=
  let ax := x + (-dirX * 8 - dirY * 8 * 0.45)
  let ay := y + (-dirY * 8 + dirX * 8 * 0.45)
  let bx := x + (-dirX * 8 + dirY * 8 * 0.45)
  let by' := y + (-dirY * 8 - dirX * 8 * 0.45)
  "<path" ++ attr "d" ("M " ++ coord x ++ " " ++ coord y ++ " L " ++ coord ax ++ " " ++ coord ay ++
    " L " ++ coord bx ++ " " ++ coord by' ++ " Z") ++ attr "fill" colour ++ "/>\n"

/-- What all arcs have in common: colour, width and no filling. -/
def strokeAttrs (colour : Text) : Text :=
  attr "stroke" colour ++ attr "stroke-width" "1" ++ attr "fill" "none"

/-- The course of an arrow between two nodes: its direction and its ends, outside of the nodes.
Points are pairs of numbers of any kind. -/
structure Course (α : Type) where
  direction : α × α
  start : α × α
  stop : α × α

namespace Course

variable {α : Type} [Add α] [Sub α] [Mul α] [Div α]

/-- The course from the point `s` to the point `t` at distance `dist`, with the given gaps between
the points and the ends. -/
def between (s t : α × α) (dist before after : α) : Course α :=
  let ux := (t.1 - s.1) / dist
  let uy := (t.2 - s.2) / dist
  { direction := (ux, uy)
    start := (s.1 + ux * before, s.2 + uy * before)
    stop := (t.1 - ux * after, t.2 - uy * after) }

/-- The point halfway between the ends. -/
def middle [OfNat α 2] (c : Course α) : α × α :=
  ((c.start.1 + c.stop.1) / 2, (c.start.2 + c.stop.2) / 2)

/-- The point that is `offset` away from the middle, at a right angle to the direction. -/
def aside [OfNat α 2] (c : Course α) (offset : α) : α × α :=
  (c.middle.1 - c.direction.2 * offset, c.middle.2 + c.direction.1 * offset)

end Course

/-- An arc that is bent by `bend` steps of 30.  Control arcs have no label. -/
def drawArc (source target : Spot) (a : Arc) (control : Bool) (bend : Int) : Text :=
  let sx := Float.ofNat source.x
  let sy := Float.ofNat source.y
  let tx := Float.ofNat target.x
  let ty := Float.ofNat target.y
  let c := Course.between (sx, sy) (tx, ty) (lengthOr1 (tx - sx) (ty - sy))
    (padding source.isPlace) (padding target.isPlace + 7.2)
  let ex := c.start.1
  let ey := c.start.2
  let fx := c.stop.1
  let fy := c.stop.2
  let colour := arcColour control
  let name := attr "id" (escapeMarkup a.id)
  let caption (x y : Float) : Text :=
    if control || a.inscription.isEmpty then [] else textLine x y "inscription" a.inscription
  if bend = 0 then
    "<line" ++ name ++ coordAttr "x1" ex ++ coordAttr "y1" ey ++ coordAttr "x2" fx ++
      coordAttr "y2" fy ++ strokeAttrs colour ++ "/>\n" ++
      arrowHead fx fy c.direction.1 c.direction.2 colour ++ caption c.middle.1 c.middle.2
  else
    let cx := (c.aside (Float.ofInt (30 * bend))).1
    let cy := (c.aside (Float.ofInt (30 * bend))).2
    let ex' := fx - cx
    let ey' := fy - cy
    let d := lengthOr1 ex' ey'
    "<path" ++ name ++
      attr "d" ("M " ++ coord ex ++ " " ++ coord ey ++
        " Q " ++ coord cx ++ " " ++ coord cy ++ " " ++
        coord fx ++ " " ++ coord fy) ++
      strokeAttrs colour ++ "/>\n" ++ arrowHead fx fy (ex' / d) (ey' / d) colour ++
      caption (0.25 * ex + 0.5 * cx + 0.25 * fx) (0.25 * ey + 0.5 * cy + 0.25 * fy)

/-! ### The image -/

/-- The smallest and the largest of some numbers; 0 without any. -/
def range : List Nat → Nat × Nat
  | [] => (0, 0)
  | n :: ns => (ns.foldl min n, ns.foldl max n)

/-- The styles of the image. -/
def styles : Text :=
  "<defs><style>" ++
    ".place \x7b fill: #fff; stroke: #333; stroke-width: 2; \x7d" ++
    ".transition \x7b fill: #ffffff; stroke: #000; stroke-width: 1; \x7d" ++
    ".transition-active \x7b fill: #62fa75; stroke: #000; \x7d" ++
    ".token-dot \x7b fill: #333; \x7d" ++
    ".token-text \x7b font-family: system-ui, Arial; font-size: 10px; fill: #333; " ++
    "text-anchor: middle; dominant-baseline: middle; \x7d" ++
    ".inscription \x7b font-family: system-ui, Arial; font-size: 10px; fill: #666; " ++
    "text-anchor: middle; dominant-baseline: middle; \x7d" ++
    ".label-text \x7b font-family: system-ui, Arial; font-size: 11px; fill: #333; " ++
    "text-anchor: middle; dominant-baseline: hanging; \x7d" ++
    ".guard-text \x7b font-family: ui-monospace, monospace; font-size: 10px; fill: #8a2be2; " ++
    "text-anchor: middle; dominant-baseline: hanging; \x7d" ++
    "</style></defs>\n"

/-- The start of the image: its size, title, background and styles. -/
def frame (id : Text) (l : Layout) : Text :=
  let (minX, maxX) := range (l.map (·.2.x))
  let (minY, maxY) := range (l.map (·.2.y))
  let left := Float.ofInt (minX - 50)
  let top := Float.ofInt (minY - 50)
  let width := Float.ofNat (max 100 (maxX - minX + 100))
  let height := Float.ofNat (max 100 (maxY - minY + 100))
  "<svg" ++ attr "xmlns" "http://www.w3.org/2000/svg" ++
    attr "viewBox" (coord left ++ " " ++ coord top ++ " " ++ coord width ++ " " ++ coord height) ++
    attr "width" (fixed 0 width) ++ attr "height" (fixed 0 height) ++ ">\n" ++
    "<title>" ++ escapeMarkup id ++ "</title>\n" ++
    "<rect" ++ coordAttr "x" left ++ coordAttr "y" top ++ coordAttr "width" width ++
    coordAttr "height" height ++ attr "fill" "#f8f9fa" ++ attr "rx" "8" ++ "/>\n" ++ styles

/-- The `i`-th arc, if both of its ends have a spot. -/
def arcAt (control : Text) (p : Page) (l : Layout) : Arc × Nat → Text
  | (a, i) =>
    match l.spot? a.source, l.spot? a.target with
    | some s, some t => drawArc s t a (a.inscription = control) (curve p.arcs i)
    | _, _ => []

/-- The centre of a node. -/
def centre (l : Layout) (id : Text) : Float × Float :=
  match l.spot? id with
  | some s => (Float.ofNat s.x, Float.ofNat s.y)
  | none => (0, 0)

/-- Draw a page. -/
def drawPage (labels : Labels) (id : Text) (p : Page) : Text :=
  let l := layout labels.control p
  frame id l ++ p.arcs.zipIdx.flatMap (arcAt labels.control p l) ++
    p.places.flatMap (fun q =>
      drawPlace labels.unit (centre l q.id).1 (centre l q.id).2 q) ++
    p.transitions.flatMap (fun t =>
      drawTransition (isActive p t.id) (centre l t.id).1 (centre l t.id).2 t) ++
    "</svg>\n"

end ContractNet.Drawing

namespace ContractNet

/-- The image of a net; absent for a net without page.  Empty labels stand for their defaults. -/
def Net.toSvg? (labels : Labels) (n : Net) : Option Text :=
  n.page.map (Drawing.drawPage labels.filled n.id)

end ContractNet
