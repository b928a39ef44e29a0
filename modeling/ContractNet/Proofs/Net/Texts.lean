import ContractNet.Net.Basic
import Mathlib.Data.List.Basic

/-!
# The texts of a net

* `Net.texts` lists the texts of a net and all its elements;
* `Net.mapTexts` changes each text of a net and leaves its shape: the order of its elements, and
  which markings and guards are there;
* `Net.mapTexts_eq_self`: a net stays as it is if its texts do.
-/

namespace ContractNet

/-- The texts of a place. -/
def Place.texts (p : Place) : List Text := p.id :: p.name :: p.marking.toList

/-- The texts of a transition. -/
def Transition.texts (t : Transition) : List Text := t.id :: t.name :: t.guard.toList

/-- The texts of an arc. -/
def Arc.texts (a : Arc) : List Text := [a.id, a.source, a.target, a.inscription]

/-- The texts of a page. -/
def Page.texts (p : Page) : List Text :=
  p.id :: (p.places.flatMap Place.texts ++ p.transitions.flatMap Transition.texts ++
    p.arcs.flatMap Arc.texts)

/-- The texts of a net. -/
def Net.texts (n : Net) : List Text := n.id :: n.type :: n.page.toList.flatMap Page.texts

section Change

variable (f : Text → Text)

/-- The place with each text changed. -/
def Place.mapTexts (p : Place) : Place := ⟨f p.id, f p.name, p.marking.map f⟩

/-- The transition with each text changed. -/
def Transition.mapTexts (t : Transition) : Transition := ⟨f t.id, f t.name, t.guard.map f⟩

/-- The arc with each text changed. -/
def Arc.mapTexts (a : Arc) : Arc := ⟨f a.id, f a.source, f a.target, f a.inscription⟩

/-- The page with each text changed, its own and those of its elements. -/
def Page.mapTexts (p : Page) : Page where
  id := f p.id
  places := p.places.map (Place.mapTexts f)
  transitions := p.transitions.map (Transition.mapTexts f)
  arcs := p.arcs.map (Arc.mapTexts f)

/-- The net with each text changed. -/
def Net.mapTexts (n : Net) : Net := ⟨f n.id, f n.type, n.page.map (Page.mapTexts f)⟩

variable {f}

theorem optionMap_eq_self {t : Option Text} (h : ∀ x ∈ t.toList, f x = x) : t.map f = t := by
  cases t with
  | none => rfl
  | some x => exact congrArg some (h x (List.mem_singleton.2 rfl))

/-- If the texts of each element do not change, neither do the elements. -/
theorem map_mapTexts_eq_self {α : Type} {mapTexts : α → α} {texts : α → List Text} {as : List α}
    (hone : ∀ a, (∀ t ∈ texts a, f t = t) → mapTexts a = a)
    (h : ∀ t ∈ as.flatMap texts, f t = t) : as.map mapTexts = as := by
  refine (List.map_congr_left fun a ha => ?_).trans (List.map_id as)
  exact hone a fun t ht => h t (List.mem_flatMap.2 ⟨a, ha, ht⟩)

theorem Place.mapTexts_eq_self (p : Place) (h : ∀ t ∈ p.texts, f t = t) : p.mapTexts f = p := by
  simp only [texts, List.forall_mem_cons] at h
  rw [mapTexts, h.1, h.2.1, optionMap_eq_self h.2.2]

theorem Transition.mapTexts_eq_self (t : Transition) (h : ∀ x ∈ t.texts, f x = x) :
    t.mapTexts f = t := by
  simp only [texts, List.forall_mem_cons] at h
  rw [mapTexts, h.1, h.2.1, optionMap_eq_self h.2.2]

theorem Arc.mapTexts_eq_self (a : Arc) (h : ∀ t ∈ a.texts, f t = t) : a.mapTexts f = a := by
  simp only [texts, List.forall_mem_cons] at h
  rw [mapTexts, h.1, h.2.1, h.2.2.1, h.2.2.2.1]

theorem Page.mapTexts_eq_self (p : Page) (h : ∀ t ∈ p.texts, f t = t) : p.mapTexts f = p := by
  simp only [texts, List.forall_mem_cons, List.forall_mem_append] at h
  obtain ⟨hid, ⟨hplaces, htransitions⟩, harcs⟩ := h
  rw [mapTexts, hid, map_mapTexts_eq_self Place.mapTexts_eq_self hplaces,
    map_mapTexts_eq_self Transition.mapTexts_eq_self htransitions,
    map_mapTexts_eq_self Arc.mapTexts_eq_self harcs]

theorem Net.mapTexts_eq_self {n : Net} (h : ∀ t ∈ n.texts, f t = t) : n.mapTexts f = n := by
  obtain ⟨id, type, page⟩ := n
  simp only [texts, List.forall_mem_cons] at h
  have hpage : page.map (Page.mapTexts f) = page := by
    cases page with
    | none => rfl
    | some p => exact congrArg some (p.mapTexts_eq_self fun t ht => h.2.2 t (by simpa using ht))
  rw [mapTexts, h.1, h.2.1, hpage]

end Change

end ContractNet
