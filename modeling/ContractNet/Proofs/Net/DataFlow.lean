import ContractNet.Proofs.Net.Wiring
import ContractNet.Validation.Report

/-!
# The data flow of compiled nets

An assignment to a variable takes the old value from the place of the variable and gives the new
one back; of several variables with one name, the last one declared is meant.  No other arcs lead to
or from the places of variables.

* `Statement.Wired` lists the data arcs of a statement;
* `Blueprint.Realizes.length_inputs_eq`: away from the places of control, arcs come in pairs;
* `Net.ofContract_dataFlow`: the data flow of a compiled net, which is therefore balanced.
-/

namespace ContractNet

/-- The statements of all functions that take a step of control. -/
def Contract.steps (c : Contract) : List Statement := c.allFunctions.flatMap Function.steps

/-- In the order of declaration, `i` is the number of the last variable with the given name. -/
structure Contract.LastDeclared (c : Contract) (name : Text) (i : Nat) : Prop where
  declared : (c.stateVariables.map (·.name))[i]? = some name
  last : ∀ j, i < j → (c.stateVariables.map (·.name))[j]? ≠ some name

/-- `ends` are those of the arcs between the transition `t` of a statement and the places of
variables: two if it assigns to a variable, else none. -/
inductive Statement.Wired (o : NetOptions) (c : Contract) (p : Page) (t : Text) :
    Statement → List (Text × Text × Text) → Prop
  | declared {op : Operation} {i : Nat} {q : Place} (hi : c.LastDeclared op.target i)
      (hq : p.places[i]? = some q) (hname : q.name = op.target) :
      Wired o c p t (.operation op)
        [(q.id, t, op.boundVariable o.bound), (t, q.id, op.newValue o.bound)]
  | undeclared {op : Operation} (h : ∀ v ∈ c.stateVariables, v.name ≠ op.target) :
      Wired o c p t (.operation op) []
  | conditional (d : Conditional) : Wired o c p t (.conditional d) []

/-! ### Places of variables -/

section Variables

variable {vs : List StateVariable} {ps : List Place} {name : Text}

theorem map_name_eq (h : List.Forall₂ StateVariable.HeldBy vs ps) :
    vs.map (·.name) = ps.map (·.name) := by
  induction h with
  | nil => rfl
  | cons hv _ ih => rw [List.map_cons, List.map_cons, hv.name, ih]

theorem lastNamed?_eq_none (h : List.Forall₂ StateVariable.HeldBy vs ps)
    (hnone : Draft.lastNamed? ps name = none) : ∀ v ∈ vs, v.name ≠ name := by
  intro v hv he
  have hmem : name ∈ ps.map (·.name) := map_name_eq h ▸ he ▸ List.mem_map_of_mem hv
  obtain ⟨q, hq, hname⟩ := List.mem_map.1 hmem
  rw [Draft.lastNamed?, Option.map_eq_none_iff, List.find?_eq_none] at hnone
  exact hnone q (List.mem_reverse.2 hq) (by simpa using hname)

/-- The place that is found is the last one with the name. -/
theorem exists_getElem?_of_lastNamed? {id : Text} (hsome : Draft.lastNamed? ps name = some id) :
    ∃ (i : Nat) (q : Place), ps[i]? = some q ∧ q.id = id ∧ q.name = name ∧
      ∀ j, i < j → (ps.map (·.name))[j]? ≠ some name := by
  obtain ⟨q, hq, rfl⟩ := Option.map_eq_some_iff.1 hsome
  obtain ⟨hname, later, earlier, hsplit, hlater⟩ := List.find?_eq_some_iff_append.1 hq
  -- the first place of the reversed list is the last one of the list
  have hps : ps = earlier.reverse ++ q :: later.reverse := by
    have := congrArg List.reverse hsplit
    simpa using this
  refine ⟨earlier.length, q, by simp [hps], rfl, by simpa using hname, fun j hj he => ?_⟩
  have hnames : ps.map (·.name) =
      (earlier.reverse ++ [q]).map (·.name) ++ later.reverse.map (·.name) := by simp [hps]
  rw [hnames, List.getElem?_append_right (by simp; omega)] at he
  obtain ⟨r, hr, hrname⟩ := List.mem_map.1 (List.mem_of_getElem? he)
  have := hlater r (List.mem_reverse.1 hr)
  simp [hrname] at this

end Variables

namespace Blueprint.Realizes

variable {o : NetOptions} {c : Contract} {b : Blueprint}

theorem length_vars (hb : b.Realizes o c) : b.vars.length = c.stateVariables.length :=
  hb.vars.length_eq.symm

theorem wired_of_isStep (hb : b.Realizes o c) {st : Statement} (hst : st.isStep = true)
    (t : Text) : st.Wired o c (b.page o.pageId) t (st.dataEnds o b.vars t) := by
  cases st with
  | operation op =>
    cases hp : Draft.lastNamed? b.vars op.target with
    | none =>
      simp only [Statement.dataEnds, hp]
      exact .undeclared (lastNamed?_eq_none hb.vars hp)
    | some id =>
      obtain ⟨i, q, hq, rfl, hname, hlast⟩ := exists_getElem?_of_lastNamed? hp
      simp only [Statement.dataEnds, hp]
      refine .declared (i := i) ⟨?_, ?_⟩ ?_ hname
      · rw [map_name_eq hb.vars, List.getElem?_map, hq, Option.map_some, hname]
      · rw [map_name_eq hb.vars]; exact hlast
      · exact List.getElem?_append_left (List.getElem?_eq_some_iff.1 hq).1 ▸ hq
  | conditional d => exact .conditional d
  | call _ => cases hst
  | unknown => cases hst

/-- Each link shows its statement. -/
theorem links_show (hb : b.Realizes o c) :
    List.Forall₂ (fun st k => ∃ f, Link.Shows o b.vars f st k) c.steps b.links := by
  have hsteps : c.steps = c.markedFunctions.flatMap (·.2.steps) := by
    simp [Contract.steps, Contract.markedFunctions, Contract.allFunctions, List.flatMap_append,
      List.flatMap_map]
  rw [hsteps]
  exact List.rel_flatMap hb.strands fun f s hf => hf.shows.imp fun _ _ h => ⟨_, h⟩

/-! ### Balance -/

/-- Data arcs come in pairs: turning them around changes no count. -/
theorem countP_dataEnds (vars : List Place) (st : Statement) (t : Text) (P : Text → Text → Bool) :
    (st.dataEnds o vars t).countP (fun e => P e.1 e.2.1) =
      (st.dataEnds o vars t).countP (fun e => P e.2.1 e.1) := by
  cases st with
  | operation op =>
    simp only [Statement.dataEnds]
    split
    · simp only [List.countP_cons, List.countP_nil]
      omega
    · rfl
  | _ => rfl

/-- Turning the arcs of a link around changes no count that treats the places before and after the
transition alike. -/
theorem countP_link {vars : List Place} {f : Text} {st : Statement} {k : Link}
    (hk : k.Shows o vars f st) {P : Text → Text → Bool}
    (hfrom : P k.before k.transition.id = P k.after.id k.transition.id)
    (hto : P k.transition.id k.before = P k.transition.id k.after.id) :
    k.arcs.countP (fun a => P a.source a.target) = k.arcs.countP fun a => P a.target a.source := by
  have hdata := countP_dataEnds (o := o) vars st k.transition.id P
  rw [← hk.data, List.countP_map, List.countP_map] at hdata
  -- turned around, the arc to the transition counts as the arc from it, and the other way round
  have henter := hk.enter
  have hleave := hk.leave
  simp only [Arc.ends, Prod.mk.injEq] at henter hleave
  simp only [Function.comp_def, Arc.ends] at hdata
  simp only [Link.arcs, List.countP_cons, List.countP_append, List.countP_nil, henter, hleave,
    hdata, hfrom, hto]
  omega

/-- Turning all arcs around changes no count that treats the places of control alike. -/
theorem countP_arcs (hb : b.Realizes o c) {P : Text → Text → Bool}
    (hP : ∀ s ∈ b.strands, ∀ q ∈ s.places, ∀ q' ∈ s.places, ∀ t,
      P q.id t = P q'.id t ∧ P t q.id = P t q'.id) :
    (b.page o.pageId).arcs.countP (fun a => P a.source a.target) =
      (b.page o.pageId).arcs.countP fun a => P a.target a.source := by
  rw [page_arcs, List.countP_flatMap, List.countP_flatMap]
  congr 1
  refine List.map_congr_left fun k hk => ?_
  obtain ⟨s, hs, hk⟩ := List.mem_flatMap.1 hk
  obtain ⟨f, -, hf⟩ := hb.follows_of_mem hs
  obtain ⟨st, -, hshows⟩ := hf.shows_of_mem hk
  obtain ⟨q, hq, he⟩ := hf.before_mem hk
  have hafter : k.after ∈ s.places := List.mem_cons_of_mem _ (List.mem_map_of_mem hk)
  have hsame := hP s hs q hq k.after hafter k.transition.id
  rw [← he] at hsame
  exact countP_link hshows hsame.1 hsame.2

/-- Away from the places of control, as many arcs lead to a node as from it. -/
theorem length_inputs_eq (hb : b.Realizes o c) {x : Text}
    (hx : ∀ s ∈ b.strands, ∀ q ∈ s.places, q.id ≠ x) :
    ((b.page o.pageId).inputs x).length = ((b.page o.pageId).outputs x).length := by
  have := hb.countP_arcs (P := fun _ t => t = x) fun s hs q hq q' hq' t => by
    simp [hx s hs q hq, hx s hs q' hq']
  simpa [Page.inputs, Page.outputs, List.countP_eq_length_filter] using this

/-- Away from the places of control, as many arcs lead from one node to another as back. -/
theorem countP_between (hb : b.Realizes o c) {x y : Text}
    (hx : ∀ s ∈ b.strands, ∀ q ∈ s.places, q.id ≠ x)
    (hy : ∀ s ∈ b.strands, ∀ q ∈ s.places, q.id ≠ y) :
    (b.page o.pageId).arcs.countP (fun a => a.source = x ∧ a.target = y) =
      (b.page o.pageId).arcs.countP fun a => a.source = y ∧ a.target = x := by
  have := hb.countP_arcs (P := fun s t => s = x ∧ t = y) fun s hs q hq q' hq' t => by
    simp [hx s hs q hq, hx s hs q' hq', hy s hs q hq, hy s hs q' hq']
  simpa [and_comm] using this

theorem place_ne_of_mem_transitions (hb : b.Realizes o c) {t : Transition}
    (ht : t ∈ (b.page o.pageId).transitions) : ∀ s ∈ b.strands, ∀ q ∈ s.places, q.id ≠ t.id :=
  fun _ hs _ hq => hb.place_ne_transition (place_mem hs (List.mem_append_right _ hq)) ht

theorem place_ne_of_mem_vars (hb : b.Realizes o c) {x : Place} (hx : x ∈ b.vars) :
    ∀ s ∈ b.strands, ∀ q ∈ s.places, q.id ≠ x.id :=
  fun _ hs _ hq => (hb.var_ne_place hx hs hq).symm

/-- Every transition of a compiled net has as many arcs to it as from it. -/
theorem unbalancedTransitions_eq_nil (hb : b.Realizes o c) :
    (b.page o.pageId).unbalancedTransitions = [] := by
  refine List.filter_eq_nil_iff.2 fun id hid => ?_
  obtain ⟨t, ht, rfl⟩ := List.mem_map.1 hid
  simpa using hb.length_inputs_eq (hb.place_ne_of_mem_transitions ht)

/-! ### The arcs of each statement -/

theorem take_places (hb : b.Realizes o c) :
    (b.page o.pageId).places.take c.stateVariables.length = b.vars := by
  rw [← hb.length_vars]
  exact List.take_left

theorem drop_places (hb : b.Realizes o c) :
    (b.page o.pageId).places.drop c.stateVariables.length = b.strands.flatMap Strand.places := by
  rw [← hb.length_vars]
  exact List.drop_left

theorem joins_of_mem_arcs (hb : b.Realizes o c) {a : Arc} (ha : a ∈ (b.page o.pageId).arcs) :
    ∃ q ∈ (b.page o.pageId).places, ∃ t ∈ (b.page o.pageId).transitions, a.Joins q.id t.id := by
  obtain ⟨s, hs, ha⟩ := List.mem_flatMap.1 ha
  obtain ⟨f, -, hf⟩ := hb.follows_of_mem hs
  obtain ⟨q, hq, t, ht, hj⟩ := hf.joins_of_mem_arcs ha
  exact ⟨q, place_mem hs hq, t, transition_mem hs ht, hj⟩

/-- The arcs at the transition of a statement: one from a place of control, those to and from the
variable that it assigns to, and one to a place of control. -/
theorem arcs_of_steps (hb : b.Realizes o c) :
    List.Forall₂ (fun st (t : Transition) =>
      ∃ q ∈ b.strands.flatMap Strand.places, ∃ q' ∈ b.strands.flatMap Strand.places, ∃ data,
        st.Wired o c (b.page o.pageId) t.id data ∧
        ((b.page o.pageId).arcs.filter (·.touches t.id)).map Arc.ends =
          (q.id, t.id, o.control) :: (data ++ [(t.id, q'.id, o.control)]))
      c.steps (b.page o.pageId).transitions := by
  rw [page_transitions, List.forall₂_map_right_iff, List.forall₂_iff_zip]
  refine ⟨hb.links_show.length_eq, fun {st k} hmem => ?_⟩
  obtain ⟨f, hshows⟩ := List.forall₂_zip hb.links_show hmem
  obtain ⟨hst, hk⟩ := List.of_mem_zip hmem
  have hstep : st.isStep = true := by
    obtain ⟨f, -, hst⟩ := List.mem_flatMap.1 hst
    exact (List.mem_filter.1 hst).2
  obtain ⟨s, hs, hks⟩ := List.mem_flatMap.1 hk
  obtain ⟨f', -, hf'⟩ := hb.follows_of_mem hs
  obtain ⟨q, hq, he⟩ := hf'.before_mem hks
  refine ⟨q, List.mem_flatMap.2 ⟨s, hs, hq⟩, k.after, List.mem_flatMap.2 ⟨s, hs, ?_⟩, _,
    hb.wired_of_isStep hstep k.transition.id, ?_⟩
  · exact List.mem_cons_of_mem _ (List.mem_map_of_mem hks)
  · rw [hb.filter_touches hk, Link.arcs, List.map_cons, List.map_append, hshows.data, hshows.enter,
      ← he]
    simp [hshows.leave]

end Blueprint.Realizes

/-- **The data flow of a compiled net.**  Every arc joins a place with a transition.  The arcs at
the transition of a statement are one from and one to a place of control and, if the statement
assigns to a variable, one from and one to the place of the last variable declared with its name.
So every transition, and every place of a variable, has as many arcs to it as from it, and
validation finds the net balanced. -/
theorem Net.ofContract_dataFlow {o : NetOptions} {c : Contract} {n : Net}
    (h : Net.ofContract o (some c) = .ok n) :
    ∃ p : Page, n.page = some p ∧ p.ids.Nodup ∧
      (∀ a ∈ p.arcs, ∃ q ∈ p.places, ∃ t ∈ p.transitions, a.Joins q.id t.id) ∧
      List.Forall₂ (fun st (t : Transition) =>
        ∃ q ∈ p.places.drop c.stateVariables.length,
        ∃ q' ∈ p.places.drop c.stateVariables.length, ∃ data,
          st.Wired o.filled c p t.id data ∧
          (p.arcs.filter (·.touches t.id)).map Arc.ends =
            (q.id, t.id, o.filled.control) :: (data ++ [(t.id, q'.id, o.filled.control)]))
        c.steps p.transitions ∧
      (∀ t ∈ p.transitions, (p.inputs t.id).length = (p.outputs t.id).length) ∧
      (∀ q ∈ p.places.take c.stateVariables.length,
        (p.inputs q.id).length = (p.outputs q.id).length ∧
        ∀ t ∈ p.transitions, p.arcs.countP (fun a => a.source = q.id ∧ a.target = t.id) =
          p.arcs.countP fun a => a.source = t.id ∧ a.target = q.id) ∧
      ∀ l, (Net.validate l (some n)).balanced = true := by
  obtain ⟨b, hb, hpage⟩ := Net.exists_blueprint h
  refine ⟨b.page o.filled.pageId, hpage, hb.nodup, fun a ha => hb.joins_of_mem_arcs ha, ?_,
    fun t ht => hb.length_inputs_eq (hb.place_ne_of_mem_transitions ht), fun q hq => ?_,
    fun l => ?_⟩
  · rw [hb.drop_places]
    exact hb.arcs_of_steps
  · rw [hb.take_places] at hq
    exact ⟨hb.length_inputs_eq (hb.place_ne_of_mem_vars hq), fun t ht =>
      hb.countP_between (hb.place_ne_of_mem_vars hq) (hb.place_ne_of_mem_transitions ht)⟩
  · simp [Net.validate, hpage, Page.validate, hb.unbalancedTransitions_eq_nil]

/-- A contract in which a later variable hides an earlier one, and an element is assigned to. -/
def Contract.ledger : Contract where
  name := "Ledger"
  stateVariables := [
    { name := "total", type := "uint8", visibility := "private" },
    { name := "total", type := "uint256", visibility := "public" }]
  functions := [{
    name := "deposit"
    visibility := "public"
    body := [
      .operation { target := "total", expression := "amount", operator := "+=" },
      .operation { target := "shares[sender]", expression := "total", operator := "=" }] }]

theorem Net.ofContract_dataFlow_ledger :
    ∃ n, Net.ofContract {} (some Contract.ledger) = .ok n ∧ ∃ p, n.page = some p ∧
      (∀ a ∈ p.arcs, ∃ q ∈ p.places, ∃ t ∈ p.transitions, a.Joins q.id t.id) ∧
      p.transitions.length = 2 ∧ (Net.validate Labels.default (some n)).balanced = true := by
  refine ⟨_, rfl, ?_⟩
  obtain ⟨p, hp, -, hjoins, hsteps, -, -, hbalanced⟩ :=
    Net.ofContract_dataFlow (o := {}) (c := Contract.ledger) rfl
  exact ⟨p, hp, hjoins, hsteps.length_eq.symm, hbalanced Labels.default⟩

end ContractNet
