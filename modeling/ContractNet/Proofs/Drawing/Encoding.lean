import ContractNet.Proofs.Drawing.Markup
import ContractNet.Proofs.Net.Texts
import ContractNet.Proofs.Text.Utf8

/-!
# The encoding of an image

Where every text that an image shows (`Net.shownTexts`) is valid UTF-8, the image is, unless a
marking is cut within a character: a long marking is shortened to its first five bytes, whatever
characters these belong to.  Every text stands between literals, and a literal keeps apart what
stands on either side of it, so an image is valid exactly if each text in it is.

* `isValid_escapeMarkup`: escaping keeps a text valid and makes none valid;
* `isValid_shorten`: what is left of a long marking;
* `isValid_drawPlace_append`, `isValid_drawArc_append`, …: an element is valid if its texts are;
* `Net.isValid_toSvg?_iff`: when the image of a net is valid.
-/

namespace ContractNet

open Text

/-! ### Shown texts -/

/-- The texts of an arc that an image shows. -/
def Arc.shownTexts (a : Arc) : List Text := [a.id, a.inscription]

/-- The texts of a page that an image shows. -/
def Page.shownTexts (p : Page) : List Text :=
  p.places.flatMap Place.texts ++ p.transitions.flatMap Transition.texts ++
    p.arcs.flatMap Arc.shownTexts

/-- The texts of a net that an image shows. -/
def Net.shownTexts (n : Net) : List Text := n.id :: n.page.toList.flatMap Page.shownTexts

theorem Arc.shownTexts_subset (a : Arc) : a.shownTexts ⊆ a.texts := by
  simp [Arc.shownTexts, Arc.texts]

theorem Page.shownTexts_subset (p : Page) : p.shownTexts ⊆ p.texts := by
  intro t ht
  rw [Page.shownTexts, List.mem_append, List.mem_flatMap] at ht
  refine List.mem_cons_of_mem _ (List.mem_append.2 (ht.imp_right ?_))
  rintro ⟨a, ha, hta⟩
  exact List.mem_flatMap.2 ⟨a, ha, a.shownTexts_subset hta⟩

theorem Net.shownTexts_subset (n : Net) : n.shownTexts ⊆ n.texts := by
  intro t ht
  rw [Net.shownTexts, List.mem_cons, List.mem_flatMap] at ht
  rcases ht with rfl | ⟨p, hp, ht⟩
  · exact List.mem_cons_self
  · exact List.mem_cons_of_mem _ (List.mem_cons_of_mem _
      (List.mem_flatMap.2 ⟨p, hp, p.shownTexts_subset ht⟩))

namespace Drawing

/-! ### Escaped and shortened texts -/

/-- **Escaping keeps a text valid** and makes none valid. -/
theorem isValid_escapeMarkup (t : Text) : isValid (escapeMarkup t) = isValid t := by
  -- what was read of the text so far stands before the rest of it
  have key : ∀ front : Text, isValid (front ++ t.flatMap escapeByte) = isValid (front ++ t) := by
    induction t with
    | nil => exact fun front => rfl
    | cons b t ih =>
      intro front
      rw [List.flatMap_cons]
      rcases escapeByte_cases b with ⟨hself, -⟩ | ⟨hascii, s, hliteral, hs, -⟩
      · have hfront := ih (front ++ [b])
        rw [List.append_assoc, List.append_assoc] at hfront
        rwa [hself]
      · have hrest := ih []
        have hchar := isValid_append_ofChar front (Char.ofNat b.toNat) t
        rw [ofChar_ofNat hascii] at hchar
        rw [hliteral, isValid_append_ofString hs]
        exact (congrArg (isValid front && ·) hrest).trans hchar.symm
  exact escapeMarkup_eq_flatMap t ▸ key []

theorem isValid_shorten (n : Nat) (t : Text) :
    isValid (shorten n t) = isValid (if t.length ≤ n then t else t.take (n - 1)) := by
  rw [shorten]
  split
  · rfl
  · have hellipsis := isValid_append_ofString (s := "…") (by decide) (t.take (n - 1)) []
    rwa [List.append_nil, isValid_nil, Bool.and_true] at hellipsis

/-! ### Elements -/

theorem isValid_fixed_append (places : Nat) (x : Float) (u : Text) :
    isValid (fixed places x ++ u) = isValid u := by
  refine isValid_ascii_append (fun b hb => ?_) u
  rcases of_mem_fixed hb with hdigit | rfl | rfl
  · exact Nat.lt_of_le_of_lt (toNat_of_isDigit hdigit).2 (by decide)
  · decide
  · decide

theorem isValid_coord_append (x : Float) (u : Text) : isValid (coord x ++ u) = isValid u :=
  isValid_fixed_append 1 x u

theorem isValid_fixed (places : Nat) (x : Float) : isValid (fixed places x) = true := by
  have happend := isValid_fixed_append places x []
  rwa [List.append_nil, isValid_nil] at happend

theorem isValid_coord (x : Float) : isValid (coord x) = true := isValid_fixed 1 x

section Elements

variable {x y : Float} (u : Text)

theorem isValid_attr_append (name : String) (value : Text) :
    isValid (attr name value ++ u) = (isValid value && isValid u) := by
  simp only [attr, List.append_assoc, isValid_ofString_append]
  exact isValid_append_ofString (by decide) value u

theorem isValid_coordAttr_append (name : String) (x : Float) :
    isValid (coordAttr name x ++ u) = isValid u := by
  rw [coordAttr, isValid_attr_append, isValid_coord, Bool.true_and]

theorem isValid_literalAttr_append (name value : String) :
    isValid (attr name value ++ u) = isValid u := by
  rw [isValid_attr_append, isValid_ofString, Bool.true_and]

theorem isValid_textLine_append (cls : String) (t : Text) :
    isValid (textLine x y cls t ++ u) = (isValid t && isValid u) := by
  simp only [textLine, List.append_assoc, isValid_ofString_append, isValid_coordAttr_append,
    isValid_literalAttr_append]
  rw [isValid_append_ofString (by decide), isValid_escapeMarkup]

theorem isValid_label {id name : Text} (hid : isValid id = true) (hname : isValid name = true) :
    isValid (label id name) = true := by
  rw [label]
  split <;> assumption

/-- The marking of the place is cut where a character begins, if it is cut at all. -/
def cutsWell (unit : Text) (q : Place) : Bool :=
  match q.marking with
  | none => true
  | some m => decide (m = unit) || isValid (shorten 6 m)

theorem isValid_drawPlace_append {q : Place} (htexts : ∀ t ∈ q.texts, isValid t = true)
    (unit : Text) : isValid (drawPlace unit x y q ++ u) = (cutsWell unit q && isValid u) := by
  obtain ⟨id, name, marking⟩ := q
  have hid : isValid id = true := htexts _ List.mem_cons_self
  have hname : isValid name = true := htexts _ (List.mem_cons_of_mem _ List.mem_cons_self)
  simp only [drawPlace, List.append_assoc, isValid_ofString_append, isValid_attr_append,
    isValid_escapeMarkup, isValid_coordAttr_append, hid, isValid_ofString, Bool.true_and]
  cases marking with
  | none =>
    simp only [List.nil_append, isValid_textLine_append, isValid_label hid hname, cutsWell]
  | some m =>
    simp only [cutsWell]
    split
    · rename_i hunit
      simp only [List.append_assoc, isValid_ofString_append, isValid_coordAttr_append,
        isValid_literalAttr_append, isValid_textLine_append, isValid_label hid hname, hunit,
        decide_true, Bool.true_or]
    · rename_i hunit
      simp only [isValid_textLine_append, isValid_label hid hname, hunit, decide_false,
        Bool.false_or, Bool.true_and]

theorem isValid_drawTransition_append {t : Transition} (htexts : ∀ s ∈ t.texts, isValid s = true)
    (active : Bool) : isValid (drawTransition active x y t ++ u) = isValid u := by
  obtain ⟨id, name, guard⟩ := t
  have hid : isValid id = true := htexts _ List.mem_cons_self
  have hname : isValid name = true := htexts _ (List.mem_cons_of_mem _ List.mem_cons_self)
  have hclass : isValid (if active then "transition transition-active" else "transition") =
      true := by
    cases active <;> exact isValid_ofString _
  simp only [drawTransition, List.append_assoc, isValid_ofString_append, isValid_attr_append,
    isValid_escapeMarkup, isValid_coordAttr_append, hid, hclass, Bool.true_and,
    isValid_textLine_append, isValid_label hid hname]
  cases guard with
  | none => rfl
  | some g =>
    have hguard : isValid g = true := htexts _ (by simp [Transition.texts])
    rw [isValid_textLine_append, hguard, Bool.true_and]

theorem isValid_arcColour (control : Bool) : isValid (arcColour control) = true := by
  cases control <;> exact isValid_ofString _

theorem isValid_arrowHead_append (dirX dirY : Float) (control : Bool) :
    isValid (arrowHead x y dirX dirY (arcColour control) ++ u) = isValid u := by
  simp only [arrowHead, List.append_assoc, isValid_ofString_append, isValid_attr_append,
    isValid_coord_append, isValid_ofString, isValid_arcColour, Bool.true_and]

theorem isValid_strokeAttrs_append (control : Bool) :
    isValid (strokeAttrs (arcColour control) ++ u) = isValid u := by
  simp only [strokeAttrs, List.append_assoc, isValid_attr_append, isValid_arcColour,
    isValid_ofString, Bool.true_and]

theorem isValid_drawArc_append (source target : Spot) {a : Arc}
    (htexts : ∀ t ∈ a.shownTexts, isValid t = true) (control : Bool) (bend : Int) :
    isValid (drawArc source target a control bend ++ u) = isValid u := by
  have hid : isValid a.id = true := htexts _ List.mem_cons_self
  have hinscription : isValid a.inscription = true := htexts _ (by simp [Arc.shownTexts])
  have hcaption : ∀ x y : Float, isValid ((if control || a.inscription.isEmpty then []
      else textLine x y "inscription" a.inscription) ++ u) = isValid u := by
    intro x y
    split
    · rfl
    · rw [isValid_textLine_append, hinscription, Bool.true_and]
  rw [drawArc]
  dsimp only
  split
  · simp only [List.append_assoc, isValid_ofString_append, isValid_attr_append,
      isValid_escapeMarkup, hid, isValid_coordAttr_append, isValid_strokeAttrs_append,
      isValid_arrowHead_append, hcaption, Bool.true_and]
  · simp only [List.append_assoc, isValid_ofString_append, isValid_attr_append,
      isValid_escapeMarkup, hid, isValid_coord_append, isValid_coord, isValid_strokeAttrs_append,
      isValid_arrowHead_append, hcaption, Bool.true_and]

theorem isValid_frame_append {id : Text} (hid : isValid id = true) (lay : Layout) :
    isValid (frame id lay ++ u) = isValid u := by
  obtain ⟨left, top, width, height, hframe⟩ := exists_frame_eq id lay
  have hstyles : isValid (styles ++ u) = isValid u := by
    simp only [styles, List.append_assoc, isValid_ofString_append]
  simp only [hframe, List.append_assoc, isValid_ofString_append, isValid_attr_append,
    isValid_coord_append, isValid_coord, isValid_fixed, isValid_ofString, Bool.true_and]
  -- the title is the one text of the net here
  rw [isValid_append_ofString (by decide), isValid_escapeMarkup, hid, Bool.true_and]
  simp only [isValid_ofString_append, isValid_coordAttr_append, isValid_literalAttr_append, hstyles]

theorem isValid_arcAt_append (control : Text) (p : Page) (lay : Layout) {e : Arc × Nat}
    (htexts : ∀ t ∈ e.1.shownTexts, isValid t = true) :
    isValid (arcAt control p lay e ++ u) = isValid u := by
  rw [arcAt]
  split
  · exact isValid_drawArc_append u _ _ htexts _ _
  · rfl

theorem isValid_flatMap_append {α : Type} {f : α → Text} {P : α → Bool} (as : List α)
    (h : ∀ a ∈ as, ∀ u, isValid (f a ++ u) = (P a && isValid u)) :
    isValid (as.flatMap f ++ u) = (as.all P && isValid u) := by
  induction as with
  | nil => rfl
  | cons a as ih =>
    obtain ⟨ha, has⟩ := List.forall_mem_cons.1 h
    rw [List.flatMap_cons, List.append_assoc, ha, ih has, List.all_cons, Bool.and_assoc]

end Elements

/-! ### The image -/

/-- **An image is valid** if its markings are cut well. -/
theorem isValid_drawPage {id : Text} {p : Page} (hid : isValid id = true)
    (htexts : ∀ t ∈ p.shownTexts, isValid t = true) (l : Labels) :
    isValid (drawPage l id p) = p.places.all (cutsWell l.unit) := by
  have hmem : ∀ t, t ∈ p.places.flatMap Place.texts ∨ t ∈ p.transitions.flatMap Transition.texts ∨
      t ∈ p.arcs.flatMap Arc.shownTexts → isValid t = true := fun t ht => htexts t <| by
    rwa [← List.mem_append, ← List.mem_append, ← List.append_assoc] at ht
  have hplace : ∀ q ∈ p.places, ∀ u, isValid (drawPlace l.unit (centre (layout l.control p) q.id).1
      (centre (layout l.control p) q.id).2 q ++ u) = (cutsWell l.unit q && isValid u) :=
    fun q hq u => isValid_drawPlace_append u (fun t ht =>
      hmem t (.inl (List.mem_flatMap.2 ⟨q, hq, ht⟩))) l.unit
  have htransition : ∀ t ∈ p.transitions, ∀ u, isValid (drawTransition (isActive p t.id)
      (centre (layout l.control p) t.id).1 (centre (layout l.control p) t.id).2 t ++ u) =
        (true && isValid u) :=
    fun t ht u => isValid_drawTransition_append u (fun s hs =>
      hmem s (.inr (.inl (List.mem_flatMap.2 ⟨t, ht, hs⟩)))) _
  have harc : ∀ e ∈ p.arcs.zipIdx, ∀ u, isValid (arcAt l.control p (layout l.control p) e ++ u) =
      (true && isValid u) := fun e he u => isValid_arcAt_append u l.control p _ fun t ht =>
    hmem t (.inr (.inr (List.mem_flatMap.2
      ⟨e.1, List.mem_of_getElem? (List.mem_zipIdx_iff_getElem?.1 he), ht⟩)))
  have htrue : ∀ {α : Type} (as : List α), as.all (fun _ => true) = true := fun as =>
    List.all_eq_true.2 fun _ _ => rfl
  rw [drawPage]
  simp only [List.append_assoc, isValid_frame_append _ hid, isValid_flatMap_append _ _ harc,
    isValid_flatMap_append _ _ hplace, isValid_flatMap_append _ _ htransition, isValid_ofString,
    htrue, Bool.true_and, Bool.and_true]

theorem cutsWell_iff {unit : Text} {q : Place} (htexts : ∀ t ∈ q.texts, isValid t = true) :
    cutsWell unit q = true ↔ ∀ m, q.marking = some m → m ≠ unit → 6 < m.length →
      isValid (m.take 5) = true := by
  obtain ⟨id, name, marking⟩ := q
  cases marking with
  | none => exact iff_of_true rfl fun m hm => nomatch hm
  | some m =>
    have hm : isValid m = true := htexts m (by simp [Place.texts])
    simp only [cutsWell, Bool.or_eq_true, decide_eq_true_eq, isValid_shorten, Option.some.injEq,
      forall_eq']
    by_cases hunit : m = unit
    · simp [hunit]
    · by_cases hlong : m.length ≤ 6
      · simp [hunit, hlong, hm, Nat.not_lt.2 hlong]
      · simp [hunit, hlong, Nat.lt_of_not_le hlong]

end Drawing

open Drawing

/-- **When the image of a net is valid.**  If all texts that the image of a net with a page shows
are valid UTF-8, the image is if and only if no marking is cut within a character: the first five
bytes of each marking of more than six, other than that of a token, are valid themselves. -/
theorem Net.isValid_toSvg?_iff {n : Net} {p : Page} (h : n.page = some p)
    (htexts : ∀ t ∈ n.shownTexts, isValid t = true) (l : Labels) :
    ∃ svg, n.toSvg? l = some svg ∧ (isValid svg = true ↔ ∀ q ∈ p.places, ∀ m,
      q.marking = some m → m ≠ l.filled.unit → 6 < m.length → isValid (m.take 5) = true) := by
  have hpage : ∀ t ∈ p.shownTexts, isValid t = true := fun t ht =>
    htexts t (by simp [Net.shownTexts, h, ht])
  refine ⟨_, by rw [Net.toSvg?, h, Option.map_some], ?_⟩
  rw [isValid_drawPage (htexts n.id List.mem_cons_self) hpage, List.all_eq_true]
  refine forall₂_congr fun q hq => cutsWell_iff fun t ht => hpage t ?_
  exact List.mem_append_left _ (List.mem_append_left _ (List.mem_flatMap.2 ⟨q, hq, ht⟩))

/-- A place with the given marking, alone on its page. -/
def Page.holding (marking : Text) : Page where
  id := "page1"
  places := [⟨"a", "start", some marking⟩]

/-- The net with that page. -/
def Net.holding (marking : Text) : Net where
  id := "net1"
  type := coreModelType
  page := some (Page.holding marking)

theorem Net.isValid_texts_holding (s : String) : ∀ t ∈ (Net.holding s).texts, isValid t = true := by
  have hliteral : ∀ t ∈ (Net.holding s).texts, ∃ s' : String, t = ofString s' := by
    simp [Net.texts, Page.texts, Place.texts, Net.holding, Page.holding, coreModelType]
  intro t ht
  obtain ⟨s', rfl⟩ := hliteral t ht
  exact isValid_ofString s'

/-- The cut is after the second `ä`. -/
theorem Net.isValid_toSvg?_holding :
    (Net.holding "aääää").page.isSome ∧ (∀ t ∈ (Net.holding "aääää").texts, isValid t = true) ∧
      ∃ svg, (Net.holding "aääää").toSvg? Labels.default = some svg ∧ isValid svg = true := by
  obtain ⟨svg, hsvg, hiff⟩ := Net.isValid_toSvg?_iff (n := Net.holding "aääää") rfl
    (fun t ht => Net.isValid_texts_holding _ t (Net.shownTexts_subset _ ht)) Labels.default
  refine ⟨rfl, Net.isValid_texts_holding _, svg, hsvg, hiff.2 fun q hq m hm _ _ => ?_⟩
  obtain rfl := List.mem_singleton.1 hq
  obtain rfl := Option.some.inj hm
  have hcut : (ofString "aääää").take 5 = ofString "aää" := by decide
  rw [hcut, isValid_ofString]

/-- The cut is within the third `ä`. -/
theorem Net.not_isValid_toSvg?_holding :
    (∀ t ∈ (Net.holding "ääää").texts, isValid t = true) ∧
      ∃ svg, (Net.holding "ääää").toSvg? Labels.default = some svg ∧ isValid svg = false := by
  have htexts := Net.isValid_texts_holding "ääää"
  refine ⟨htexts, _, rfl, ?_⟩
  have hcut : (ofString "ääää").take 5 = ofString "ää" ++ [0xc3] := by decide
  have hstray : isValid [0xc3] = false := by
    have hnone : decodeChar? [0xc3] = none := by decide
    rw [isValid, pieces, hnone]
    rfl
  have hpage : ∀ t ∈ (Page.holding "ääää").shownTexts, isValid t = true := fun t ht =>
    htexts t (Net.shownTexts_subset _ (by simp [Net.shownTexts, Net.holding, ht]))
  have hplace : ∀ t ∈ Place.texts ⟨"a", "start", some "ääää"⟩, isValid t = true := fun t ht =>
    hpage t (by simpa [Page.shownTexts, Page.holding] using ht)
  have hcutsWell : cutsWell Labels.default.filled.unit ⟨"a", "start", some "ääää"⟩ = false := by
    rw [← Bool.not_eq_true, cutsWell_iff hplace]
    intro hvalid
    have hfive := hvalid _ rfl (by decide) (by decide)
    rw [hcut, isValid_ofString_append, hstray] at hfive
    cases hfive
  exact (isValid_drawPage (htexts _ List.mem_cons_self) hpage Labels.default.filled).trans
    (by rw [Page.holding, List.all_cons, hcutsWell, Bool.false_and])

end ContractNet
