import ContractNet.Net.Basic

/-!
# Drafting a net

A draft is a page to which elements are added.  Every element takes the next id: a fixed stem and
the number of ids handed out before, whatever the kind of the elements.
-/

namespace ContractNet

/-- A page in the making, with the stem of its ids and the number of ids handed out. -/
structure Draft where
  page : Page
  stem : Text
  allocated : Nat := 0
deriving DecidableEq

namespace Draft

variable (d : Draft)

/-- An empty draft. -/
def empty (pageId stem : Text) : Draft := { page := { id := pageId }, stem := stem }

/-- The id that the next element takes. -/
def nextId : Text := d.stem ++ Text.decimal d.allocated

/-- Hand out an id for nothing. -/
def skipId : Draft := { d with allocated := d.allocated + 1 }

/-- Add a place. -/
def addPlace (name : Text) (marking : Option Text) : Draft :=
  { d with
    page := { d.page with places := d.page.places ++ [⟨d.nextId, name, marking⟩] }
    allocated := d.allocated + 1 }

/-- Add a transition. -/
def addTransition (name : Text) (guard : Option Text) : Draft :=
  { d with
    page := { d.page with transitions := d.page.transitions ++ [⟨d.nextId, name, guard⟩] }
    allocated := d.allocated + 1 }

/-- Add an arc. -/
def addArc (source target inscription : Text) : Draft :=
  { d with
    page := { d.page with arcs := d.page.arcs ++ [⟨d.nextId, source, target, inscription⟩] }
    allocated := d.allocated + 1 }

/-- Add an arc from a place to a transition and one from the transition to a place. -/
def addFlow (source transition target taken given : Text) : Draft :=
  (d.addArc source transition taken).addArc transition target given

/-- The net with the drafted page. -/
def toNet (id type : Text) : Net := { id := id, type := type, page := some d.page }

end Draft

end ContractNet
