import ContractNet.Proofs.Drawing.Layout
import ContractNet.Proofs.Text.Digits

/-!
# The markup of an image

The bytes that delimit tags and values of attributes are the marks of a text.  No text of a net has
marks left once it is escaped, so those of an image come from its elements alone: each tag has a
bracket on either side, and two quotes for each attribute.

* `escapeMarkup_eq_flatMap`: escaping takes one pass;
* `marks_escapeMarkup`, `marks_fixed`: neither escaped texts nor numbers have marks;
* `pageTags` lists the tags of an image, each by the number of its attributes;
* `Net.marks_toSvg?`: the marks of an image, and how many there are of each kind.
-/

namespace ContractNet

namespace Drawing

/-! ### Escaped texts -/

/-- What stands for a byte in an escaped text. -/
def escapeByte (b : UInt8) : Text :=
  if b = '&' then "&amp;"
  else if b = '<' then "&lt;"
  else if b = '>' then "&gt;"
  else if b = 0x22 then "&quot;"
  else if b = 0x27 then "&apos;"
  else [b]

/-- **Escaping takes one pass:** no replacement has a byte that a later one replaces. -/
theorem escapeMarkup_eq_flatMap (t : Text) : escapeMarkup t = t.flatMap escapeByte := by
  simp only [escapeMarkup, Text.replaceByte, List.flatMap_assoc]
  refine List.flatMap_congr fun b _ => ?_
  rw [escapeByte]
  split_ifs with hamp hlt hgt hquot hapos
  · decide
  · subst hlt
    decide
  · subst hgt
    decide
  · subst hquot
    decide
  · subst hapos
    decide
  · simp [hlt, hgt, hquot, hapos]

/-! ### Marks -/

/-- The byte delimits a tag or the value of an attribute. -/
def isMark (b : UInt8) : Bool := b ∈ ([0x3c, 0x3e, 0x22, 0x27] : Text)

/-- The delimiting bytes of a text, in their order. -/
def marks (t : Text) : Text := t.filter isMark

theorem marks_append (s t : Text) : marks (s ++ t) = marks s ++ marks t := List.filter_append s t

/-- The marks of a literal, from its characters. -/
theorem marks_ofList (cs : List Char) :
    marks (Text.ofString (String.ofList cs)) = marks (Text.ofChars cs) := by
  rw [Text.ofString, String.toList_ofList]
  rfl

theorem marks_flatMap {α : Type} (f : α → Text) (as : List α) :
    marks (as.flatMap f) = as.flatMap fun a => marks (f a) := List.filter_flatMap

theorem marks_eq_nil_iff {t : Text} : marks t = [] ↔ ∀ b ∈ t, isMark b = false := by
  simp [marks, List.filter_eq_nil_iff]

/-- A byte that is no mark stands for itself, or a literal without marks is in the place of an ASCII
character. -/
theorem escapeByte_cases (b : UInt8) : (escapeByte b = [b] ∧ isMark b = false) ∨
    b.toNat < 0x80 ∧ ∃ s : String, escapeByte b = Text.ofString s ∧ s.toList ≠ [] ∧
      marks (Text.ofString s) = [] := by
  rw [escapeByte]
  split_ifs with hamp hlt hgt hquot hapos
  · exact .inr ⟨hamp ▸ by decide, _, rfl, by decide, by decide⟩
  · exact .inr ⟨hlt ▸ by decide, _, rfl, by decide, by decide⟩
  · exact .inr ⟨hgt ▸ by decide, _, rfl, by decide, by decide⟩
  · exact .inr ⟨hquot ▸ by decide, _, rfl, by decide, by decide⟩
  · exact .inr ⟨hapos ▸ by decide, _, rfl, by decide, by decide⟩
  · exact .inl ⟨rfl, by simpa [isMark] using ⟨hlt, hgt, hquot, hapos⟩⟩

theorem marks_escapeByte (b : UInt8) : marks (escapeByte b) = [] := by
  rcases escapeByte_cases b with ⟨hself, hmark⟩ | ⟨-, s, hliteral, -, hmarks⟩
  · rw [hself]
    exact List.filter_cons_of_neg (by simp [hmark])
  · rw [hliteral, hmarks]

/-- **No text has marks once it is escaped.** -/
theorem marks_escapeMarkup (t : Text) : marks (escapeMarkup t) = [] := by
  rw [escapeMarkup_eq_flatMap, marks_flatMap]
  exact List.flatMap_eq_nil_iff.2 fun b _ => marks_escapeByte b

/-- A number has digits, a sign and a point. -/
theorem of_mem_fixed {places : Nat} {x : Float} {b : UInt8} (h : b ∈ fixed places x) :
    Text.isDigit b = true ∨ b = 0x2d ∨ b = 0x2e := by
  have hsign : b ∈ Text.ofString (if (Binary.ofFloat x).negative then "-" else "") → b = 0x2d := by
    intro hb
    split at hb
    · exact List.mem_singleton.1 hb
    · cases hb
  rcases List.mem_append.1 h with hb | hb
  · exact .inr (.inl (hsign hb))
  · split at hb
    · exact .inl (Text.isDigit_of_mem_decimal hb)
    · rcases List.mem_append.1 hb with hb | hb
      · rcases List.mem_append.1 hb with hb | hb
        · exact .inl (Text.isDigit_of_mem_decimal hb)
        · exact .inr (.inr (List.mem_singleton.1 hb))
      · exact .inl (Text.isDigit_of_mem_padZeros hb)

theorem marks_fixed (places : Nat) (x : Float) : marks (fixed places x) = [] := by
  refine marks_eq_nil_iff.2 fun b hb => ?_
  rcases of_mem_fixed hb with hdigit | rfl | rfl
  · obtain ⟨hlow, hhigh⟩ := Text.toNat_of_isDigit hdigit
    by_contra hmark
    rw [Bool.not_eq_false, isMark, decide_eq_true_eq] at hmark
    simp only [List.mem_cons, List.not_mem_nil, or_false] at hmark
    rcases hmark with rfl | rfl | rfl | rfl <;> revert hlow hhigh <;> decide
  · decide
  · decide

/-! ### The marks of an image -/

/-- The marks of a tag with so many attributes. -/
def tagMarks (attributes : Nat) : Text := 0x3c :: (List.replicate (2 * attributes) 0x22 ++ [0x3e])

/-- The tags before the nodes and the arcs, each by the number of its attributes. -/
def frameTags : List Nat := [4, 0, 0, 6, 0, 0, 0, 0]

/-- The tags of a line of text. -/
def lineTags : List Nat := [3, 0]

/-- The tags of a place. -/
def placeTags (unit : Text) (q : Place) : List Nat :=
  let tokens := match q.marking with
    | none => []
    | some m => if m = unit then [4] else lineTags
  5 :: (tokens ++ lineTags)

/-- The tags of a transition. -/
def transitionTags (t : Transition) : List Nat :=
  8 :: (lineTags ++ if t.guard.isSome then lineTags else [])

/-- The tags of an arc; it is drawn if both of its ends have a spot. -/
def arcTags (control : Text) (p : Page) (lay : Layout) (e : Arc × Nat) : List Nat :=
  if lay.has e.1.source && lay.has e.1.target then
    (if curve p.arcs e.2 = 0 then 8 else 5) :: 2 ::
      (if e.1.inscription = control || e.1.inscription.isEmpty then [] else lineTags)
  else []

/-- The tags of an image. -/
def pageTags (l : Labels) (p : Page) (lay : Layout) : List Nat :=
  frameTags ++ p.arcs.zipIdx.flatMap (arcTags l.control p lay) ++
    p.places.flatMap (placeTags l.unit) ++ p.transitions.flatMap transitionTags ++ [0]

/-! ### Elements -/

theorem marks_brackets :
    (marks "<svg" = [0x3c] ∧ marks "<text" = [0x3c] ∧ marks "<circle" = [0x3c] ∧
      marks "<rect" = [0x3c] ∧ marks "<line" = [0x3c] ∧ marks "<path" = [0x3c]) ∧
    (marks ">" = [0x3e] ∧ marks ">\n" = [0x3e] ∧ marks "/>\n" = [0x3e]) ∧
    marks "<title>" = [0x3c, 0x3e] ∧ marks "</title>\n" = [0x3c, 0x3e] ∧
      marks "</text>\n" = [0x3c, 0x3e] ∧ marks "</svg>\n" = [0x3c, 0x3e] := by
  decide

section Attributes

variable {name value : Text}

theorem marks_attr (hname : marks name = []) (hvalue : marks value = []) :
    marks (attr name value) = [0x22, 0x22] := by
  have hopen : marks "=\"" = [0x22] := by decide
  have hspace : marks " " = [] := by decide
  have hclose : marks "\"" = [0x22] := by decide
  rw [attr, marks_append, marks_append, marks_append, marks_append, hname, hvalue, hopen, hspace,
    hclose]
  rfl

theorem marks_attr_escapeMarkup (hname : marks name = []) (t : Text) :
    marks (attr name (escapeMarkup t)) = [0x22, 0x22] := marks_attr hname (marks_escapeMarkup t)

theorem marks_coordAttr (hname : marks name = []) (x : Float) :
    marks (coordAttr name x) = [0x22, 0x22] := marks_attr hname (marks_fixed 1 x)

theorem marks_coord (x : Float) : marks (coord x) = [] := marks_fixed 1 x

end Attributes

variable {x y : Float}

theorem marks_textLine {cls : Text} (hcls : marks cls = []) (t : Text) :
    marks (textLine x y cls t) = lineTags.flatMap tagMarks := by
  have hattr : marks (attr "class" cls) = [0x22, 0x22] := marks_attr (by decide) hcls
  simp (disch := decide) only [textLine, marks_append, marks_brackets, marks_coordAttr, hattr,
    marks_escapeMarkup]
  rfl

theorem marks_drawPlace (unit : Text) (q : Place) :
    marks (drawPlace unit x y q) = (placeTags unit q).flatMap tagMarks := by
  obtain ⟨id, name, marking⟩ := q
  simp (disch := decide) only [drawPlace, placeTags, marks_append, marks_brackets,
    marks_attr_escapeMarkup, marks_coordAttr, marks_attr, marks_textLine, List.flatMap_cons,
    List.flatMap_append]
  cases marking with
  | none => rfl
  | some m =>
    dsimp only
    split
    · simp (disch := decide) only [marks_append, marks_brackets, marks_coordAttr, marks_attr]
      rfl
    · simp (disch := decide) only [marks_textLine]
      rfl

theorem marks_drawTransition (active : Bool) (t : Transition) :
    marks (drawTransition active x y t) = (transitionTags t).flatMap tagMarks := by
  obtain ⟨id, name, guard⟩ := t
  have hclass : marks (if active then "transition transition-active" else "transition") = [] := by
    cases active <;> decide
  simp (disch := decide) only [drawTransition, transitionTags, marks_append, marks_brackets,
    marks_attr_escapeMarkup, marks_coordAttr, marks_attr _ hclass, marks_textLine,
    List.flatMap_cons, List.flatMap_append]
  cases guard with
  | none => rfl
  | some g =>
    simp (disch := decide) only [marks_textLine]
    rfl

theorem marks_arcColour (control : Bool) : marks (arcColour control) = [] := by
  cases control <;> decide

theorem marks_strokeAttrs (control : Bool) :
    marks (strokeAttrs (arcColour control)) = List.replicate 6 0x22 := by
  have hcolour : marks (attr "stroke" (arcColour control)) = [0x22, 0x22] :=
    marks_attr (by decide) (marks_arcColour control)
  simp (disch := decide) only [strokeAttrs, marks_append, hcolour, marks_attr]
  rfl

theorem marks_arrowHead (dirX dirY : Float) (control : Bool) :
    marks (arrowHead x y dirX dirY (arcColour control)) = tagMarks 2 := by
  have hcolour : marks (attr "fill" (arcColour control)) = [0x22, 0x22] :=
    marks_attr (by decide) (marks_arcColour control)
  have hpath : marks "M " = [] ∧ marks " " = [] ∧ marks " L " = [] ∧ marks " Z" = [] := by decide
  rw [arrowHead]
  simp only [marks_append]
  rw [marks_attr (by decide) (by simp only [marks_append, marks_coord, hpath, List.append_nil]),
    hcolour]
  rfl

theorem marks_drawArc (source target : Spot) (a : Arc) (control : Bool) (bend : Int) :
    marks (drawArc source target a control bend) =
      ((if bend = 0 then 8 else 5) :: 2 ::
        (if control || a.inscription.isEmpty then [] else lineTags)).flatMap tagMarks := by
  have hcaption : ∀ x y : Float, marks (if control || a.inscription.isEmpty then []
      else textLine x y "inscription" a.inscription) =
        (if control || a.inscription.isEmpty then [] else lineTags).flatMap tagMarks := by
    intro x y
    split
    · rfl
    · exact marks_textLine (by decide) _
  have hpath : marks "M " = [] ∧ marks " " = [] ∧ marks " Q " = [] := by decide
  rw [drawArc]
  dsimp only
  split
  · simp (disch := decide) only [marks_append, marks_brackets, marks_attr_escapeMarkup,
      marks_coordAttr, marks_strokeAttrs, marks_arrowHead, hcaption]
    rfl
  · simp (disch := decide) only [marks_append, marks_brackets, marks_attr_escapeMarkup,
      marks_strokeAttrs, marks_arrowHead, hcaption]
    rw [marks_attr (by decide) (by simp only [marks_append, marks_coord, hpath, List.append_nil])]
    rfl

theorem marks_styles : marks styles = [0x3c, 0x3e, 0x3c, 0x3e, 0x3c, 0x3e, 0x3c, 0x3e] := by
  simp only [styles, marks_append]
  -- the bytes of a long literal take too long to evaluate, its characters do not
  repeat rw [marks_ofList]
  decide

/-- Of the spots, the start of an image holds four numbers. -/
theorem exists_frame_eq (id : Text) (lay : Layout) : ∃ left top width height : Float,
    frame id lay = "<svg" ++ attr "xmlns" "http://www.w3.org/2000/svg" ++
      attr "viewBox" (coord left ++ " " ++ coord top ++ " " ++ coord width ++ " " ++
        coord height) ++
      attr "width" (fixed 0 width) ++ attr "height" (fixed 0 height) ++ ">\n" ++
      "<title>" ++ escapeMarkup id ++ "</title>\n" ++
      "<rect" ++ coordAttr "x" left ++ coordAttr "y" top ++ coordAttr "width" width ++
      coordAttr "height" height ++ attr "fill" "#f8f9fa" ++ attr "rx" "8" ++ "/>\n" ++ styles :=
  ⟨_, _, _, _, rfl⟩

theorem marks_frame (id : Text) (lay : Layout) :
    marks (frame id lay) = frameTags.flatMap tagMarks := by
  obtain ⟨left, top, width, height, hframe⟩ := exists_frame_eq id lay
  have hspace : marks " " = [] := by decide
  have hxmlns : marks "http://www.w3.org/2000/svg" = [] := (marks_ofList _).trans (by decide)
  have hview : marks (coord left ++ " " ++ coord top ++ " " ++ coord width ++ " " ++
      coord height) = [] := by simp only [marks_append, marks_coord, hspace, List.append_nil]
  rw [hframe]
  simp (disch := decide) only [marks_append, marks_brackets, marks_escapeMarkup, marks_styles,
    marks_attr _ hview, marks_attr _ hxmlns, marks_attr _ (marks_fixed 0 _), marks_coordAttr,
    marks_attr]
  rfl

theorem marks_arcAt (control : Text) (p : Page) (lay : Layout) (e : Arc × Nat) :
    marks (arcAt control p lay e) = (arcTags control p lay e).flatMap tagMarks := by
  rw [arcAt, arcTags, Layout.has, Layout.has]
  cases lay.spot? e.1.source with
  | none => rfl
  | some s =>
    cases lay.spot? e.1.target with
    | none => rfl
    | some t => exact marks_drawArc s t e.1 _ _

/-- **The marks of an image** are those of its tags. -/
theorem marks_drawPage (l : Labels) (id : Text) (p : Page) :
    marks (drawPage l id p) = (pageTags l p (layout l.control p)).flatMap tagMarks := by
  simp only [drawPage, pageTags, marks_append, marks_flatMap, marks_frame, marks_arcAt,
    marks_drawPlace, marks_drawTransition, marks_brackets, List.flatMap_append, List.flatMap_assoc]
  rfl

/-! ### Counting marks -/

theorem count_tagMarks (k : Nat) :
    (tagMarks k).count 0x3c = 1 ∧ (tagMarks k).count 0x3e = 1 ∧ (tagMarks k).count 0x22 = 2 * k ∧
      (tagMarks k).count 0x27 = 0 := by
  simp [tagMarks, List.count_replicate]

theorem count_flatMap_tagMarks (tags : List Nat) :
    (tags.flatMap tagMarks).count 0x3c = tags.length ∧
      (tags.flatMap tagMarks).count 0x3e = tags.length ∧
      (tags.flatMap tagMarks).count 0x22 = 2 * tags.sum ∧
      (tags.flatMap tagMarks).count 0x27 = 0 := by
  induction tags with
  | nil => decide
  | cons k tags ih =>
    obtain ⟨hopen, hclose, hquote, hsingle⟩ := ih
    simp only [List.flatMap_cons, List.count_append, count_tagMarks, hopen, hclose, hquote,
      hsingle, List.length_cons, List.sum_cons]
    exact ⟨Nat.add_comm .., Nat.add_comm .., by omega, trivial⟩

theorem count_marks {b : UInt8} (hb : isMark b = true) (t : Text) : (marks t).count b = t.count b :=
  List.count_filter hb

/-- How many tags an arc takes. -/
theorem length_arcTags (control : Text) (p : Page) (lay : Layout) (e : Arc × Nat) :
    (arcTags control p lay e).length =
      if e.1.source ∈ lay.nodes ∧ e.1.target ∈ lay.nodes then
        2 + if e.1.inscription ≠ [] ∧ e.1.inscription ≠ control then 2 else 0
      else 0 := by
  have hcaption : (if e.1.inscription = control || e.1.inscription.isEmpty then []
      else lineTags).length =
        if e.1.inscription ≠ [] ∧ e.1.inscription ≠ control then 2 else 0 := by
    by_cases hcontrol : e.1.inscription = control <;>
      by_cases hempty : e.1.inscription = [] <;> simp [hcontrol, hempty, lineTags]
  rw [arcTags]
  simp only [Bool.and_eq_true, Layout.has_iff]
  split
  · rw [List.length_cons, List.length_cons, hcaption]
    omega
  · rfl

theorem length_placeTags (unit : Text) (q : Place) :
    (placeTags unit q).length = 3 + match q.marking with
      | none => 0
      | some m => if m = unit then 1 else 2 := by
  obtain ⟨id, name, marking⟩ := q
  cases marking with
  | none => rfl
  | some m =>
    simp only [placeTags]
    split <;> rfl

theorem length_transitionTags (t : Transition) :
    (transitionTags t).length = 3 + if t.guard.isSome then 2 else 0 := by
  rw [transitionTags]
  split <;> rfl

/-- How many tags an image has. -/
theorem length_pageTags (l : Labels) (p : Page) (lay : Layout) :
    (pageTags l p lay).length = 9 +
      (p.arcs.map fun a => if a.source ∈ lay.nodes ∧ a.target ∈ lay.nodes then
        2 + if a.inscription ≠ [] ∧ a.inscription ≠ l.control then 2 else 0 else 0).sum +
      (p.places.map fun q => 3 + match q.marking with
        | none => 0
        | some m => if m = l.unit then 1 else 2).sum +
      (p.transitions.map fun t => 3 + if t.guard.isSome then 2 else 0).sum := by
  have harcs : (p.arcs.zipIdx.map fun e => (arcTags l.control p lay e).length) = p.arcs.map fun a =>
      if a.source ∈ lay.nodes ∧ a.target ∈ lay.nodes then
        2 + if a.inscription ≠ [] ∧ a.inscription ≠ l.control then 2 else 0 else 0 := by
    simp only [length_arcTags]
    nth_rewrite 2 [← List.zipIdx_map_fst 0 p.arcs]
    rw [List.map_map]
    rfl
  have hframe : frameTags.length = 8 := rfl
  simp only [pageTags, List.length_append, List.length_flatMap, harcs, length_placeTags,
    length_transitionTags, hframe, List.length_singleton]
  omega

end Drawing

open Drawing

/-- **The markup of an image.**  The bytes of an image that delimit tags and values of attributes
are those of its tags, and no text of the net adds any: whatever the texts are, an image has nine
tags, two more for each arc that is drawn and two for its caption, three for each place and one for
a token or two for another marking, and three for each transition and two for its guard; as many
brackets on either side, two quotes for each attribute, and no single quote. -/
theorem Net.marks_toSvg? {n : Net} {p : Page} (h : n.page = some p) (l : Labels) :
    ∃ svg, n.toSvg? l = some svg ∧
      marks svg =
        (pageTags l.filled p (netLayout l.filled.control (some n))).flatMap tagMarks ∧
      svg.count 0x3c = 9 +
        (p.arcs.map fun a =>
          if a.source ∈ (netLayout l.filled.control (some n)).nodes ∧
            a.target ∈ (netLayout l.filled.control (some n)).nodes then
            2 + if a.inscription ≠ [] ∧ a.inscription ≠ l.filled.control then 2 else 0
          else 0).sum +
        (p.places.map fun q => 3 + match q.marking with
          | none => 0
          | some m => if m = l.filled.unit then 1 else 2).sum +
        (p.transitions.map fun t => 3 + if t.guard.isSome then 2 else 0).sum ∧
      svg.count 0x3e = svg.count 0x3c ∧
      svg.count 0x22 =
        2 * (pageTags l.filled p (netLayout l.filled.control (some n))).sum ∧
      svg.count 0x27 = 0 := by
  have hmarks := marks_drawPage l.filled n.id p
  obtain ⟨hopen, hclose, hquote, hsingle⟩ :=
    count_flatMap_tagMarks (pageTags l.filled p (layout l.filled.control p))
  rw [← hmarks, count_marks (by decide)] at hopen hclose hquote hsingle
  rw [netLayout_of_page h]
  refine ⟨_, by rw [Net.toSvg?, h, Option.map_some], hmarks, ?_, hclose.trans hopen.symm, hquote,
    hsingle⟩
  rw [hopen, length_pageTags]

/-- Texts full of markup, and an arc from outside. -/
def Page.hostile : Page where
  id := "page1"
  places := [⟨"p<", "</text>", some "<b>&\x22\x27"⟩, ⟨"q", "", some NetOptions.default.unit⟩]
  transitions := [⟨"t>", "&lt;", some "[a < b]"⟩]
  arcs := [⟨"1", "p<", "t>", "()"⟩, ⟨"2", "q", "t>", "x > y"⟩, ⟨"3", "outside", "t>", "z"⟩]

/-- The net with that page. -/
def Net.hostile : Net := { id := "<svg>", type := coreModelType, page := some Page.hostile }

theorem Net.marks_toSvg?_hostile :
    Net.hostile.page = some Page.hostile ∧ ∃ svg, Net.hostile.toSvg? Labels.default = some svg ∧
      svg.count 0x3c = 29 ∧ svg.count 0x3e = 29 ∧ svg.count 0x27 = 0 := by
  obtain ⟨svg, hsvg, -, hopen, hclose, -, hsingle⟩ :=
    Net.marks_toSvg? (n := Net.hostile) (p := Page.hostile) rfl Labels.default
  have hcount : svg.count 0x3c = 29 := by
    rw [hopen]
    decide +kernel
  exact ⟨rfl, svg, hsvg, hcount, hclose.trans hcount, hsingle⟩

end ContractNet
