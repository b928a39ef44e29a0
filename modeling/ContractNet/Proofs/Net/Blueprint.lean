import ContractNet.Proofs.Net.Numbering
import Mathlib.Data.List.Forall2

/-!
# The blueprint of a contract's page

A blueprint names the elements of a page by what they are there for: the places of the variables,
and for every function a strand, which is an entry followed by one link for each statement that
takes a step of control.

* `Blueprint.page` is the page of a blueprint;
* `Blueprint.Realizes o c b` says that `b` is a blueprint for the contract `c`: variables,
  functions and statements in their order, each with its names, guards, markings and arcs;
* `Blueprint.exists_realizes` is the one statement about drafting that the properties of
  compiled nets rest on: the page of a contract is the page of a blueprint for it.
-/

namespace ContractNet

/-- Source, target and inscription of an arc. -/
def Arc.ends (a : Arc) : Text × Text × Text := (a.source, a.target, a.inscription)

/-! ### Statements -/

/-- The statement takes a step of control: it is an assignment or a condition. -/
def Statement.isStep : Statement → Bool
  | operation _ | conditional _ => true
  | call _ | unknown => false

/-- The statements that take a step of control, in their order. -/
def Function.steps (f : Function) : List Statement := f.body.filter Statement.isStep

/-- The transition has the name and the guard of the statement in the function `f`. -/
def Statement.ShownBy (f : Text) (t : Transition) : Statement → Prop
  | operation op => t.name = f ++ "_op_" ++ op.target ∧ t.guard = none
  | conditional c =>
    t.name = c.kind ++ "_" ++ Text.integer c.startLine ∧ t.guard = some ("[" ++ c.guard ++ "]")
  | call _ | unknown => False

/-- The ends of the arcs between the transition `t` of the statement and the places `vars` of the
variables. -/
def Statement.dataEnds (o : NetOptions) (vars : List Place) (t : Text) :
    Statement → List (Text × Text × Text)
  | operation op =>
    match Draft.lastNamed? vars op.target with
    | some p => [(p, t, op.boundVariable o.bound), (t, p, op.newValue o.bound)]
    | none => []
  | call _ | conditional _ | unknown => []

/-! ### Links, strands and blueprints -/

/-- What a statement leaves on the page. -/
structure Link where
  /-- The id of the place that control comes from. -/
  before : Text
  transition : Transition
  /-- The place that control goes to. -/
  after : Place
  /-- The arc from the place before. -/
  enter : Arc
  /-- The arcs between the transition and the places of variables. -/
  data : List Arc
  /-- The arc to the place after. -/
  leave : Arc

/-- The arcs that control takes. -/
def Link.control (k : Link) : List Arc := [k.enter, k.leave]

/-- The arcs in the order of their creation. -/
def Link.arcs (k : Link) : List Arc := k.enter :: (k.data ++ [k.leave])

/-- The link is what the statement `s` of the function `f` leaves on the page. -/
structure Link.Shows (o : NetOptions) (vars : List Place) (f : Text) (s : Statement) (k : Link) :
    Prop where
  transition : s.ShownBy f k.transition
  unmarked : k.after.marking = none
  enter : k.enter.ends = (k.before, k.transition.id, o.control)
  data : k.data.map Arc.ends = s.dataEnds o vars k.transition.id
  leave : k.leave.ends = (k.transition.id, k.after.id, o.control)

/-- The links follow each other: the first starts from the place `q`, and every other one from the
place after the one before it. -/
def Linked : Text → List Link → Prop
  | _, [] => True
  | q, k :: ks => k.before = q ∧ Linked k.after.id ks

/-- What a function leaves on the page. -/
structure Strand where
  entry : Place
  links : List Link

namespace Strand

variable (s : Strand)

/-- The places of control. -/
def places : List Place := s.entry :: s.links.map (·.after)

/-- The transitions in the order of the statements. -/
def transitions : List Transition := s.links.map (·.transition)

/-- All arcs. -/
def arcs : List Arc := s.links.flatMap Link.arcs

/-- The strand is what the function `f` leaves on the page; `marked` tells whether control starts
there. -/
structure Follows (o : NetOptions) (vars : List Place) (marked : Bool) (f : Function) (s : Strand) :
    Prop where
  name : s.entry.name = f.name ++ "_entry"
  marking : s.entry.marking = if marked then some o.unit else none
  linked : Linked s.entry.id s.links
  shows : List.Forall₂ (Link.Shows o vars f.name) f.steps s.links

end Strand

/-- The place holds the initial value of the variable. -/
structure StateVariable.HeldBy (v : StateVariable) (p : Place) : Prop where
  name : p.name = v.name
  marking : p.marking = if v.initial = [] then none else some v.initial

/-- The elements of a page by what they are there for. -/
structure Blueprint where
  /-- The places of the variables. -/
  vars : List Place
  strands : List Strand

/-- The functions in the order of drafting, each with whether control starts there. -/
def Contract.markedFunctions (c : Contract) : List (Bool × Function) :=
  c.constructor.toList.map (true, ·) ++ c.functions.map (false, ·)

namespace Blueprint

variable (b : Blueprint)

/-- The links of all strands. -/
def links : List Link := b.strands.flatMap (·.links)

/-- The page of a blueprint. -/
def page (id : Text) : Page where
  id := id
  places := b.vars ++ b.strands.flatMap Strand.places
  transitions := b.strands.flatMap Strand.transitions
  arcs := b.strands.flatMap Strand.arcs

theorem page_transitions (id : Text) :
    (b.page id).transitions = b.links.map (·.transition) := by
  rw [links, List.map_flatMap]
  rfl

theorem page_arcs (id : Text) : (b.page id).arcs = b.links.flatMap Link.arcs := by
  rw [links, List.flatMap_assoc]
  rfl

/-- The blueprint is one for the contract `c`: a place for each variable, a strand for each
function, and no id used twice. -/
structure Realizes (o : NetOptions) (c : Contract) (b : Blueprint) : Prop where
  vars : List.Forall₂ StateVariable.HeldBy c.stateVariables b.vars
  strands : List.Forall₂ (fun f s => Strand.Follows o b.vars f.1 f.2 s)
    c.markedFunctions b.strands
  nodup : (b.page o.pageId).ids.Nodup

end Blueprint

/-! ### Drafting -/

/-- A page with more elements at the ends of its lists. -/
def Page.extended (p : Page) (places : List Place) (transitions : List Transition)
    (arcs : List Arc) : Page :=
  { p with
    places := p.places ++ places
    transitions := p.transitions ++ transitions
    arcs := p.arcs ++ arcs }

@[simp] theorem Page.extended_nil (p : Page) : p.extended [] [] [] = p := by
  simp [Page.extended]

@[simp] theorem Page.extended_extended (p : Page) (ps ps' : List Place)
    (ts ts' : List Transition) (as as' : List Arc) :
    (p.extended ps ts as).extended ps' ts' as' =
      p.extended (ps ++ ps') (ts ++ ts') (as ++ as') := by
  simp [Page.extended]

namespace Draft

variable (d : Draft) (o : NetOptions) (vars : List Place)

theorem addPlace_page (name : Text) (marking : Option Text) :
    (d.addPlace name marking).page = d.page.extended [⟨d.nextId, name, marking⟩] [] [] := by
  simp [addPlace, Page.extended]

theorem addTransition_page (name : Text) (guard : Option Text) :
    (d.addTransition name guard).page = d.page.extended [] [⟨d.nextId, name, guard⟩] [] := by
  simp [addTransition, Page.extended]

theorem addArc_page (source target inscription : Text) :
    (d.addArc source target inscription).page =
      d.page.extended [] [] [⟨d.nextId, source, target, inscription⟩] := by
  simp [addArc, Page.extended]

theorem addVariables_spec (vs : List StateVariable) :
    ∃ ps, List.Forall₂ StateVariable.HeldBy vs ps ∧
      (d.addVariables vs).page = d.page.extended ps [] [] := by
  induction vs generalizing d with
  | nil => exact ⟨[], .nil, by simp [addVariables]⟩
  | cons v vs ih =>
    let p : Place := ⟨d.nextId, v.name, if v.initial.isEmpty then none else some v.initial⟩
    obtain ⟨ps, hps, hpage⟩ := ih (d.addPlace p.name p.marking)
    refine ⟨p :: ps, .cons ⟨rfl, by simp [p]⟩ hps, ?_⟩
    rw [addPlace_page, Page.extended_extended] at hpage
    exact hpage

theorem addData_spec (t : Text) (op : Operation) :
    ∃ as, as.map Arc.ends = (Statement.operation op).dataEnds o vars t ∧
      (d.addData o vars t op).page = d.page.extended [] [] as := by
  cases hp : lastNamed? vars op.target with
  | none => exact ⟨[], by simp [Statement.dataEnds, hp], by simp [addData, hp]⟩
  | some p =>
    let read : Arc := ⟨d.nextId, p, t, op.boundVariable o.bound⟩
    let write : Arc := ⟨d.skipId.nextId, t, p, op.newValue o.bound⟩
    refine ⟨[read, write], by simp only [Statement.dataEnds, hp]; rfl, ?_⟩
    simp only [addData, hp, addFlow, addArc_page, Page.extended_extended]
    rfl

/-- A step of control leaves a link. -/
theorem addStep_spec {f : Text} {st : Statement} {s : ControlStep}
    (hs : ControlStep.of? f st = some s) (current : Text) :
    ∃ k : Link, k.before = current ∧ k.Shows o vars f st ∧
      (d.addStep o vars current s).2 = k.after.id ∧
      (d.addStep o vars current s).1.page =
        d.page.extended [k.after] [k.transition] k.arcs := by
  let t : Transition := ⟨d.nextId, s.name, s.guard⟩
  let d₁ := d.addTransition t.name t.guard
  let d₂ := d₁.addArc current t.id o.control
  have hpage₂ : d₂.page =
      d.page.extended [] [t] [⟨d₁.nextId, current, t.id, o.control⟩] := by
    simp only [d₂, d₁, addArc_page, addTransition_page, Page.extended_extended]
    rfl
  -- after the arcs to variables, if any, the step is the same for all statements
  have key : ∀ (d₃ : Draft) (as : List Arc), d₃.page = d₂.page.extended [] [] as →
      as.map Arc.ends = st.dataEnds o vars t.id → st.ShownBy f t →
      d.addStep o vars current s =
        ((d₃.addPlace s.after none).addArc t.id d₃.nextId o.control, d₃.nextId) →
      ∃ k : Link, k.before = current ∧ k.Shows o vars f st ∧
        (d.addStep o vars current s).2 = k.after.id ∧
        (d.addStep o vars current s).1.page =
          d.page.extended [k.after] [k.transition] k.arcs := by
    intro d₃ as hpage₃ has hshown heq
    let after : Place := ⟨d₃.nextId, s.after, none⟩
    let leave : Arc := ⟨(d₃.addPlace s.after none).nextId, t.id, after.id, o.control⟩
    refine ⟨⟨current, t, after, ⟨d₁.nextId, current, t.id, o.control⟩, as, leave⟩, rfl,
      ⟨hshown, rfl, rfl, has, rfl⟩, by rw [heq], ?_⟩
    rw [heq, addArc_page, addPlace_page, hpage₃, hpage₂]
    simp [Page.extended, Link.arcs, after, leave]
  cases st with
  | operation op =>
    obtain rfl := Option.some.inj hs
    obtain ⟨as, has, hpage⟩ := addData_spec d₂ o vars t.id op
    exact key _ as hpage has ⟨rfl, rfl⟩ rfl
  | conditional c =>
    obtain rfl := Option.some.inj hs
    exact key d₂ [] (by simp) rfl ⟨rfl, rfl⟩ rfl
  | call c => cases hs
  | unknown => cases hs

/-- A list of statements leaves links that follow each other; calls leave nothing. -/
theorem addSteps_spec (f : Text) (body : List Statement) (current : Text) :
    ∃ ks, Linked current ks ∧
      List.Forall₂ (Link.Shows o vars f) (body.filter Statement.isStep) ks ∧
      (d.addSteps o vars current (body.filterMap (ControlStep.of? f))).page =
        d.page.extended (ks.map (·.after)) (ks.map (·.transition)) (ks.flatMap Link.arcs) := by
  induction body generalizing d current with
  | nil => exact ⟨[], trivial, .nil, by simp [addSteps]⟩
  | cons st body ih =>
    cases hs : ControlStep.of? f st with
    | none =>
      have hno : st.isStep = false := by cases st <;> simp_all [ControlStep.of?, Statement.isStep]
      rw [List.filterMap_cons_none hs, List.filter_cons_of_neg (by simp [hno])]
      exact ih d current
    | some s =>
      have hyes : st.isStep = true := by cases st <;> simp_all [ControlStep.of?, Statement.isStep]
      rw [List.filterMap_cons_some hs, List.filter_cons_of_pos hyes]
      obtain ⟨k, hbefore, hshows, hnext, hpage⟩ := addStep_spec d o vars hs current
      obtain ⟨ks, hlinked, hall, hpages⟩ := ih (d.addStep o vars current s).1 k.after.id
      refine ⟨k :: ks, ⟨hbefore, hlinked⟩, .cons hshows hall, ?_⟩
      rw [hpage, Page.extended_extended] at hpages
      rw [← hnext] at hpages
      exact hpages

theorem addFunction_spec (marked : Bool) (f : Function) :
    ∃ s : Strand, s.Follows o vars marked f ∧
      (d.addFunction o vars marked f).page =
        d.page.extended s.places s.transitions s.arcs := by
  let entry : Place := ⟨d.nextId, f.name ++ "_entry", if marked then some o.unit else none⟩
  obtain ⟨ks, hlinked, hall, hpage⟩ :=
    addSteps_spec (d.addPlace entry.name entry.marking) o vars f.name f.body entry.id
  refine ⟨⟨entry, ks⟩, ⟨rfl, rfl, hlinked, hall⟩, ?_⟩
  rw [addPlace_page, Page.extended_extended] at hpage
  exact hpage

theorem foldl_addFunction_spec (fs : List (Bool × Function)) :
    ∃ ss : List Strand, List.Forall₂ (fun f s => Strand.Follows o vars f.1 f.2 s) fs ss ∧
      (fs.foldl (fun d f => d.addFunction o vars f.1 f.2) d).page =
        d.page.extended (ss.flatMap Strand.places) (ss.flatMap Strand.transitions)
          (ss.flatMap Strand.arcs) := by
  induction fs generalizing d with
  | nil => exact ⟨[], .nil, by simp⟩
  | cons f fs ih =>
    obtain ⟨s, hs, hpage⟩ := addFunction_spec d o vars f.1 f.2
    obtain ⟨ss, hss, hpages⟩ := ih (d.addFunction o vars f.1 f.2)
    refine ⟨s :: ss, .cons hs hss, ?_⟩
    rw [hpage, Page.extended_extended] at hpages
    exact hpages

/-- The functions are drafted one after the other, once all variables have their places. -/
theorem ofContract_eq_foldl (c : Contract) {d : Draft}
    (hd : d = (empty o.pageId o.idStem).addVariables c.stateVariables) :
    ofContract o c = c.markedFunctions.foldl (fun d' f => d'.addFunction o d.page.places f.1 f.2)
      d := by
  rw [Contract.markedFunctions, List.foldl_append, List.foldl_map, List.foldl_map, hd]
  rfl

end Draft

/-- **The page of a contract is the page of a blueprint for it.** -/
theorem Blueprint.exists_realizes (o : NetOptions) (c : Contract) :
    ∃ b : Blueprint, b.Realizes o c ∧ (Draft.ofContract o c).page = b.page o.pageId := by
  obtain ⟨vars, hvars, hpage⟩ :=
    Draft.addVariables_spec (Draft.empty o.pageId o.idStem) c.stateVariables
  let d := (Draft.empty o.pageId o.idStem).addVariables c.stateVariables
  -- all variables are drafted before the first function, so their places are those of `d`
  have hplaces : d.page.places = vars := by rw [hpage]; rfl
  obtain ⟨ss, hss, hpages⟩ := Draft.foldl_addFunction_spec d o vars c.markedFunctions
  have hfold : Draft.ofContract o c =
      c.markedFunctions.foldl (fun d f => d.addFunction o vars f.1 f.2) d := by
    rw [Draft.ofContract_eq_foldl o c (d := d) rfl, hplaces]
  have heq : (Draft.ofContract o c).page = (⟨vars, ss⟩ : Blueprint).page o.pageId := by
    rw [hfold, hpages, hpage]
    simp [Page.extended, Blueprint.page, Draft.empty]
  exact ⟨⟨vars, ss⟩, ⟨hvars, hss, heq ▸ (Draft.numbered_ofContract o c).nodup⟩, heq⟩

theorem Contract.unhandled?_eq_none_iff {c : Contract} :
    c.unhandled? = none ↔ ∀ f ∈ c.allFunctions, Statement.unknown ∉ f.body := by
  rw [Contract.unhandled?, List.findSome?_eq_none_iff]
  refine forall₂_congr fun f _ => ?_
  rw [Option.map_eq_none_iff, Function.unknownAt?, List.findIdx?_eq_none_iff]
  simp only [decide_eq_false_iff_not]
  exact ⟨fun h hs => h _ hs rfl, fun h s hs he => h (he ▸ hs)⟩

/-- A contract has a net if and only if all its statements are of known kinds. -/
theorem Net.ofContract_eq_ok_iff {o : NetOptions} {c : Contract} {n : Net} :
    Net.ofContract o (some c) = .ok n ↔ (∀ f ∈ c.allFunctions, Statement.unknown ∉ f.body) ∧
      n = (Draft.ofContract o.filled c).toNet o.filled.netId o.filled.netType := by
  rw [← Contract.unhandled?_eq_none_iff, Net.ofContract]
  cases c.unhandled? with
  | none => simp [eq_comm]
  | some e => simp

theorem Net.eq_of_ofContract {o : NetOptions} {c : Contract} {n : Net}
    (h : Net.ofContract o (some c) = .ok n) :
    n = (Draft.ofContract o.filled c).toNet o.filled.netId o.filled.netType :=
  (Net.ofContract_eq_ok_iff.1 h).2

/-- A compiled net has the page of a blueprint. -/
theorem Net.exists_blueprint {o : NetOptions} {c : Contract} {n : Net}
    (h : Net.ofContract o (some c) = .ok n) :
    ∃ b : Blueprint, b.Realizes o.filled c ∧ n.page = some (b.page o.filled.pageId) := by
  obtain ⟨b, hb, hpage⟩ := Blueprint.exists_realizes o.filled c
  exact ⟨b, hb, by rw [Net.eq_of_ofContract h, ← hpage]; rfl⟩

end ContractNet
