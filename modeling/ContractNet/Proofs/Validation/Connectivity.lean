import ContractNet.Proofs.Net.ControlFlow

/-!
# Connectivity of compiled nets

Which nodes of a compiled net are reported as taking no part in its flow.  Every transition has
control arcs to it and from it.  A place of a variable is isolated if no assignment writes the
variable, and of the places of control only the entry of a function without steps is.

* `Contract.Writes` tells which variables are written; one that is hidden by a later variable with
  its name is not;
* `Blueprint.Realizes.exists_touches_var_iff`: the arcs at the place of a variable;
* `Net.ofContract_connectivity`: the warnings of connectivity for a compiled net.
-/

namespace ContractNet

theorem flatMap_eq_map_filter {α β : Type} {P : α → Bool} {g : α → List β} {h : α → β}
    {as : List α} (hall : ∀ a ∈ as, g a = if P a then [h a] else []) :
    as.flatMap g = (as.filter P).map h := by
  induction as with
  | nil => rfl
  | cons a as ih =>
    obtain ⟨ha, has⟩ := List.forall_mem_cons.1 hall
    rw [List.flatMap_cons, ih has, ha, List.filter_cons]
    split <;> rfl

/-! ### Variables that are written -/

theorem Contract.lastDeclared_iff {c : Contract} {name : Text} {i : Nat} :
    c.LastDeclared name i ↔ (c.stateVariables.map (·.name))[i]? = some name ∧
      ∀ later ∈ (c.stateVariables.map (·.name)).drop (i + 1), later ≠ name := by
  have hlater : name ∈ (c.stateVariables.map (·.name)).drop (i + 1) ↔
      ∃ j, i < j ∧ (c.stateVariables.map (·.name))[j]? = some name := by
    rw [List.mem_iff_getElem?]
    constructor
    · rintro ⟨k, hk⟩
      exact ⟨i + 1 + k, by omega, by rwa [List.getElem?_drop] at hk⟩
    · rintro ⟨j, hj, he⟩
      refine ⟨j - (i + 1), ?_⟩
      rwa [List.getElem?_drop, Nat.add_sub_cancel' hj]
  simp only [ne_eq, List.forall_mem_ne', hlater]
  exact ⟨fun h => ⟨h.declared, fun ⟨j, hj, he⟩ => h.last j hj he⟩,
    fun h => ⟨h.1, fun j hj he => h.2 ⟨j, hj, he⟩⟩⟩

instance (c : Contract) (name : Text) (i : Nat) : Decidable (c.LastDeclared name i) :=
  decidable_of_iff _ Contract.lastDeclared_iff.symm

/-- The statement assigns to the variable with the number `i` in the order of declaration. -/
def Statement.Writes (c : Contract) (i : Nat) : Statement → Prop
  | operation op => c.LastDeclared op.target i
  | call _ | conditional _ | unknown => False

instance (c : Contract) (i : Nat) : DecidablePred (Statement.Writes c i)
  | .operation op => inferInstanceAs (Decidable (c.LastDeclared op.target i))
  | .call _ | .conditional _ | .unknown => inferInstanceAs (Decidable False)

/-- Some function assigns to the variable with the number `i`. -/
def Contract.Writes (c : Contract) (i : Nat) : Prop :=
  ∃ f ∈ c.allFunctions, ∃ st ∈ f.body, st.Writes c i

instance (c : Contract) : DecidablePred c.Writes := fun i =>
  inferInstanceAs (Decidable (∃ f ∈ c.allFunctions, ∃ st ∈ f.body, st.Writes c i))

theorem Contract.writes_iff {c : Contract} {i : Nat} :
    c.Writes i ↔ ∃ op, .operation op ∈ c.steps ∧ c.LastDeclared op.target i := by
  simp only [Contract.Writes, Contract.steps, Function.steps, List.mem_flatMap, List.mem_filter]
  constructor
  · rintro ⟨f, hf, st, hst, hwrites⟩
    cases st with
    | operation op => exact ⟨op, ⟨f, hf, hst, rfl⟩, hwrites⟩
    | _ => cases hwrites
  · rintro ⟨op, ⟨f, hf, hst, -⟩, hlast⟩
    exact ⟨f, hf, _, hst, hlast⟩

/-! ### Places of variables -/

namespace Blueprint.Realizes

variable {o : NetOptions} {c : Contract} {b : Blueprint}

theorem nodup_varIds (hb : b.Realizes o c) : (b.vars.map (·.id)).Nodup := by
  have hnd := hb.nodup_placeIds
  simp only [page, List.map_append] at hnd
  exact (List.nodup_append.1 hnd).1

/-- The place that is found by a name is that of the last variable declared with it. -/
theorem lastNamed?_eq_iff (hb : b.Realizes o c) {i : Nat} {q : Place} (hq : b.vars[i]? = some q)
    (name : Text) : Draft.lastNamed? b.vars name = some q.id ↔ c.LastDeclared name i := by
  have hnames := map_name_eq hb.vars
  constructor
  · intro hlast
    obtain ⟨j, q', hq', hid, hname, hlater⟩ := exists_getElem?_of_lastNamed? hlast
    have hij : i = j := by
      refine (List.getElem?_inj ?_ hb.nodup_varIds).1 ?_
      · rw [List.length_map]
        exact (List.getElem?_eq_some_iff.1 hq).1
      · rw [List.getElem?_map, List.getElem?_map, hq, hq', Option.map_some, Option.map_some, hid]
    subst hij
    refine ⟨?_, hnames ▸ hlater⟩
    rw [hnames, List.getElem?_map, hq', Option.map_some, hname]
  · intro hlast
    cases hfound : Draft.lastNamed? b.vars name with
    | none =>
      obtain ⟨v, hv, hname⟩ := List.mem_map.1 (List.mem_of_getElem? hlast.declared)
      exact absurd hname (lastNamed?_eq_none hb.vars hfound v hv)
    | some id =>
      obtain ⟨j, q', hq', rfl, hname, hlater⟩ := exists_getElem?_of_lastNamed? hfound
      have hj : (c.stateVariables.map (·.name))[j]? = some name := by
        rw [hnames, List.getElem?_map, hq', Option.map_some, hname]
      -- both are the last variable with the name
      have hij : i = j := by
        rcases Nat.lt_trichotomy i j with hlt | he | hlt
        · exact absurd hj (hlast.last j hlt)
        · exact he
        · exact absurd hlast.declared (hnames ▸ hlater i hlt)
      subst hij
      rw [Option.some.inj (hq.symm.trans hq')]

/-- Only data arcs end at the places of variables. -/
theorem mem_data_of_touches (hb : b.Realizes o c) {k : Link} (hk : k ∈ b.links) {q : Place}
    (hq : q ∈ b.vars) {a : Arc} (ha : a ∈ k.arcs) (htouch : a.touches q.id = true) :
    a ∈ k.data := by
  obtain ⟨s, hs, hks⟩ := List.mem_flatMap.1 hk
  obtain ⟨f, -, hf⟩ := hb.follows_of_mem hs
  obtain ⟨st, -, hshows⟩ := hf.shows_of_mem hks
  have hplace : ∀ q' ∈ s.places, ¬(q'.id = q.id ∨ k.transition.id = q.id) := by
    intro q' hq'
    exact not_or_intro (hb.place_ne_of_mem_vars hq s hs q' hq')
      (hb.link_ne_place hk (List.mem_append_left _ hq))
  simp only [Link.arcs, List.mem_cons, List.mem_append, List.not_mem_nil, or_false] at ha
  rcases ha with rfl | ha | rfl
  · obtain ⟨q', hq', he⟩ := hf.before_mem hks
    rw [hshows.enter_joins.touches_iff, he] at htouch
    exact absurd htouch (hplace q' hq')
  · exact ha
  · rw [hshows.leave_joins.touches_iff] at htouch
    exact absurd htouch (hplace k.after (List.mem_cons_of_mem _ (List.mem_map_of_mem hks)))

/-- **An arc ends at the place of a variable** if and only if an assignment means that place. -/
theorem exists_touches_var_iff (hb : b.Realizes o c) {q : Place} (hq : q ∈ b.vars) :
    (∃ a ∈ (b.page o.pageId).arcs, a.touches q.id = true) ↔
      ∃ op, .operation op ∈ c.steps ∧ Draft.lastNamed? b.vars op.target = some q.id := by
  rw [page_arcs]
  constructor
  · rintro ⟨a, ha, htouch⟩
    obtain ⟨k, hk, ha⟩ := List.mem_flatMap.1 ha
    obtain ⟨st, hst, f, hshows⟩ := exists_left_of_mem hb.links_show hk
    have hends : a.ends ∈ st.dataEnds o b.vars k.transition.id :=
      hshows.data ▸ List.mem_map_of_mem (hb.mem_data_of_touches hk hq ha htouch)
    cases st with
    | operation op =>
      refine ⟨op, hst, ?_⟩
      simp only [Statement.dataEnds] at hends
      split at hends
      · rename_i id hlast
        have hne : k.transition.id ≠ q.id := hb.link_ne_place hk (List.mem_append_left _ hq)
        have hjoins : a.Joins id k.transition.id := by
          rcases List.mem_pair.1 hends with he | he
          · exact .inl ⟨congrArg Prod.fst he, congrArg (·.2.1) he⟩
          · exact .inr ⟨congrArg Prod.fst he, congrArg (·.2.1) he⟩
        rw [hlast, ((hjoins.touches_iff q.id).1 htouch).resolve_right hne]
      · cases hends
    | _ => cases hends
  · rintro ⟨op, hop, hlast⟩
    obtain ⟨k, hk, f, hshows⟩ := exists_left_of_mem hb.links_show.flip hop
    have hread : (q.id, k.transition.id, op.boundVariable o.bound) ∈ k.data.map Arc.ends := by
      rw [hshows.data, Statement.dataEnds, hlast]
      exact List.mem_cons_self
    obtain ⟨a, ha, hends⟩ := List.mem_map.1 hread
    have hsource : a.source = q.id := congrArg Prod.fst hends
    refine ⟨a, List.mem_flatMap.2 ⟨k, hk, ?_⟩, by simp [Arc.touches, hsource]⟩
    exact List.mem_cons_of_mem _ (List.mem_append_left _ ha)

/-! ### What is reported -/

theorem checkPlace_eq (p : Page) (q : Place) :
    p.checkPlace q = if ∃ a ∈ p.arcs, a.touches q.id = true then [] else [.isolatedPlace q] := by
  have hany : (p.arcs.any fun a => a.source = q.id || a.target = q.id) = true ↔
      ∃ a ∈ p.arcs, a.touches q.id = true := List.any_eq_true
  simp only [Page.checkPlace, hany]

theorem flatMap_checkPlace_vars (hb : b.Realizes o c) :
    b.vars.flatMap (b.page o.pageId).checkPlace =
      (b.vars.zipIdx.filter fun x => ¬c.Writes x.2).map fun x => .isolatedPlace x.1 := by
  have hwrites : ∀ x ∈ b.vars.zipIdx,
      ((∃ a ∈ (b.page o.pageId).arcs, a.touches x.1.id = true) ↔ c.Writes x.2) := by
    intro x hx
    have hq : b.vars[x.2]? = some x.1 := List.mem_zipIdx_iff_getElem?.1 hx
    rw [hb.exists_touches_var_iff (List.mem_of_getElem? hq), Contract.writes_iff]
    exact exists_congr fun op => and_congr_right fun _ => hb.lastNamed?_eq_iff hq op.target
  calc b.vars.flatMap (b.page o.pageId).checkPlace
    _ = b.vars.zipIdx.flatMap fun x => (b.page o.pageId).checkPlace x.1 := by
      nth_rewrite 1 [← List.zipIdx_map_fst 0 b.vars]
      rw [List.flatMap_map]
    _ = (b.vars.zipIdx.filter fun x => ¬c.Writes x.2).map fun x => .isolatedPlace x.1 := by
      refine flatMap_eq_map_filter fun x hx => ?_
      simp only [checkPlace_eq, hwrites x hx, decide_not, Bool.not_eq_true', decide_eq_false_iff_not,
        ite_not]

/-- Every place that a link leads to has an arc. -/
theorem checkPlace_after (hb : b.Realizes o c) {k : Link} (hk : k ∈ b.links) :
    (b.page o.pageId).checkPlace k.after = [] := by
  obtain ⟨st, -, f, hshows⟩ := exists_left_of_mem hb.links_show hk
  have hleave : k.leave ∈ (b.page o.pageId).arcs := by
    rw [page_arcs]
    exact List.mem_flatMap.2 ⟨k, hk, by simp [Link.arcs]⟩
  rw [checkPlace_eq, if_pos ⟨k.leave, hleave, (hshows.leave_joins.touches_iff _).2 (.inl rfl)⟩]

/-- An entry has an arc if and only if its strand has links. -/
theorem exists_touches_entry_iff (hb : b.Realizes o c) {s : Strand} (hs : s ∈ b.strands) :
    (∃ a ∈ (b.page o.pageId).arcs, a.touches s.entry.id = true) ↔ s.links ≠ [] := by
  constructor
  · rintro ⟨a, ha, htouch⟩ hnil
    have hmem : a ∈ (b.page o.pageId).arcs.filter s.touchedBy :=
      List.mem_filter.2 ⟨ha, List.any_eq_true.2 ⟨s.entry, List.mem_cons_self, htouch⟩⟩
    rw [hb.filter_touchedBy hs, hnil] at hmem
    cases hmem
  · intro hne
    obtain ⟨k, hk, hbefore⟩ := (hb.exists_before_eq_entry_iff hs).2 hne
    obtain ⟨st, -, f, hshows⟩ := exists_left_of_mem hb.links_show hk
    refine ⟨k.enter, ?_, (hshows.enter_joins.touches_iff _).2 (.inl hbefore)⟩
    rw [page_arcs]
    exact List.mem_flatMap.2 ⟨k, hk, List.mem_cons_self⟩

/-- Of a strand, at most the entry is isolated: if its function takes no step. -/
theorem flatMap_checkPlace_strand (hb : b.Realizes o c) {s : Strand} (hs : s ∈ b.strands)
    {marked : Bool} {f : Function} (hf : s.Follows o b.vars marked f) :
    s.places.flatMap (b.page o.pageId).checkPlace =
      if f.steps.isEmpty then [.isolatedPlace s.entry] else [] := by
  have hafter : (s.links.map (·.after)).flatMap (b.page o.pageId).checkPlace = [] := by
    refine List.flatMap_eq_nil_iff.2 fun q hq => ?_
    obtain ⟨k, hk, rfl⟩ := List.mem_map.1 hq
    exact hb.checkPlace_after (mem_links hs hk)
  have hlinks : s.links = [] ↔ f.steps = [] := by
    rw [← List.length_eq_zero_iff, ← List.length_eq_zero_iff, hf.shows.length_eq]
  rw [Strand.places, List.flatMap_cons, hafter, List.append_nil, checkPlace_eq]
  simp only [hb.exists_touches_entry_iff hs, ne_eq, hlinks, ite_not, List.isEmpty_iff]

theorem flatMap_checkPlace_strands (hb : b.Realizes o c) :
    (b.strands.flatMap Strand.places).flatMap (b.page o.pageId).checkPlace =
      ((c.markedFunctions.zip b.strands).filter fun x => x.1.2.steps.isEmpty).map
        fun x => .isolatedPlace x.2.entry := by
  have hstrands : List.Forall₂ (fun f s => s.places.flatMap (b.page o.pageId).checkPlace =
      if f.2.steps.isEmpty then [.isolatedPlace s.entry] else []) c.markedFunctions b.strands := by
    refine List.forall₂_iff_zip.2 ⟨hb.strands.length_eq, fun {f s} hmem => ?_⟩
    exact hb.flatMap_checkPlace_strand (List.of_mem_zip hmem).2 (List.forall₂_zip hb.strands hmem)
  rw [List.flatMap_assoc,
    flatMap_eq_filter_zip (P := fun f : Bool × Function => f.2.steps.isEmpty) hstrands]

/-- Every transition has an arc to it and one from it. -/
theorem checkTransition_eq_nil (hb : b.Realizes o c) {t : Transition}
    (ht : t ∈ (b.page o.pageId).transitions) : (b.page o.pageId).checkTransition t = [] := by
  rw [page_transitions] at ht
  obtain ⟨k, hk, rfl⟩ := List.mem_map.1 ht
  obtain ⟨st, -, f, hshows⟩ := exists_left_of_mem hb.links_show hk
  have harcs : ∀ a ∈ k.arcs, a ∈ (b.page o.pageId).arcs := fun a ha =>
    page_arcs b o.pageId ▸ List.mem_flatMap.2 ⟨k, hk, ha⟩
  have hinput : k.enter ∈ (b.page o.pageId).inputs k.transition.id :=
    List.mem_filter.2 ⟨harcs _ List.mem_cons_self, decide_eq_true (congrArg (·.2.1) hshows.enter)⟩
  have houtput : k.leave ∈ (b.page o.pageId).outputs k.transition.id :=
    List.mem_filter.2 ⟨harcs _ (by simp [Link.arcs]), decide_eq_true (congrArg (·.1) hshows.leave)⟩
  simp [Page.checkTransition, List.ne_nil_of_mem hinput, List.ne_nil_of_mem houtput]

/-- **What is reported of connectivity:** the places of variables that are not written, and the
entries of functions without steps. -/
theorem findingsOf_connectivity (hb : b.Realizes o c) (l : Labels) :
    (b.page o.pageId).findingsOf l .connectivity =
      ((b.vars.zipIdx.filter fun x => ¬c.Writes x.2).map fun x => .isolatedPlace x.1) ++
        ((c.markedFunctions.zip b.strands).filter fun x => x.1.2.steps.isEmpty).map
          fun x => .isolatedPlace x.2.entry := by
  have htransitions :
      (b.page o.pageId).transitions.flatMap (b.page o.pageId).checkTransition = [] :=
    List.flatMap_eq_nil_iff.2 fun t ht => hb.checkTransition_eq_nil ht
  have hplaces : (b.page o.pageId).places = b.vars ++ b.strands.flatMap Strand.places := rfl
  rw [Page.findingsOf, htransitions, List.append_nil, hplaces, List.flatMap_append,
    hb.flatMap_checkPlace_vars, hb.flatMap_checkPlace_strands]

end Blueprint.Realizes

/-! ### Warnings -/

/-- The warnings of a category. -/
def Report.warningsOf (r : Report) (c : Category) : List Finding :=
  r.warnings.filter (·.category = c)

/-- What is found about connectivity are warnings. -/
theorem Page.warningsOf_connectivity (p : Page) (l : Labels) :
    (p.validate l).warningsOf .connectivity = p.findingsOf l .connectivity := by
  have hwarnings : (p.findingsOf l .connectivity).filter (·.severity = .warning) =
      p.findingsOf l .connectivity := by
    refine List.filter_eq_self.2 fun f hf => decide_eq_true ?_
    rcases List.mem_append.1 hf with hf | hf
    · obtain ⟨q, -, hf⟩ := List.mem_flatMap.1 hf
      exact (Page.of_mem_checkPlace hf).2
    · obtain ⟨t, -, hf⟩ := List.mem_flatMap.1 hf
      exact (Page.of_mem_checkTransition hf).2
  rw [Report.warningsOf, Report.warnings, Report.ofSeverity, List.filter_comm]
  exact (congrArg _ (Page.filter_findings .connectivity)).trans hwarnings

/-- **The warnings of connectivity for a compiled net** are, in the order of the page, one for each
place of a variable that no function writes, and one for each entry of a function that takes no step
of control.  No transition is reported. -/
theorem Net.ofContract_connectivity {o : NetOptions} {c : Contract} {n : Net}
    (h : Net.ofContract o (some c) = .ok n) :
    ∃ (p : Page) (vars : List Place) (strands : List Strand), n.page = some p ∧
      p.places = vars ++ strands.flatMap Strand.places ∧
      List.Forall₂ StateVariable.HeldBy c.stateVariables vars ∧
      List.Forall₂ (fun f s => Strand.Follows o.filled vars f.1 f.2 s) c.markedFunctions strands ∧
      ∀ l, (Net.validate l (some n)).warningsOf .connectivity =
          ((vars.zipIdx.filter fun x => ¬c.Writes x.2).map fun x => .isolatedPlace x.1) ++
            (((c.markedFunctions.zip strands).filter fun x => x.1.2.steps.isEmpty).map
              fun x => .isolatedPlace x.2.entry) ∧
        ∀ t, .noInputs t ∉ (Net.validate l (some n)).findings ∧
          .noOutputs t ∉ (Net.validate l (some n)).findings := by
  obtain ⟨b, hb, hpage⟩ := Net.exists_blueprint h
  refine ⟨b.page o.filled.pageId, b.vars, b.strands, hpage, rfl, hb.vars, hb.strands, fun l => ?_⟩
  have hfindings := hb.findingsOf_connectivity l.filled
  rw [Net.validate_of_page hpage]
  refine ⟨(Page.warningsOf_connectivity _ _).trans hfindings, fun t => ⟨?_, ?_⟩⟩
  all_goals
    intro hmem
    have hmem := Page.mem_findings_iff.1 hmem
    simp only [Finding.category, hfindings, List.mem_append, List.mem_map, reduceCtorEq, and_false,
      exists_false, or_false] at hmem

/-- A contract in which a variable is hidden by a later one, only an element of another is assigned
to, the constructor does nothing, and a function only calls. -/
def Contract.attic : Contract where
  name := "Attic"
  stateVariables := [
    { name := "total", type := "uint8", visibility := "private" },
    { name := "total", type := "uint256", visibility := "public" },
    { name := "notes", type := "string", index := "uint256", visibility := "private" }]
  constructor := some { name := "constructor", visibility := "public" }
  functions := [
    { name := "ping"
      visibility := "public"
      body := [.call { name := "log", arguments := none, line := 5 }] },
    { name := "add"
      visibility := "public"
      body := [
        .operation { target := "total", expression := "1", operator := "+=" },
        .operation { target := "notes[total]", expression := "note", operator := "=" }] }]

theorem Net.ofContract_connectivity_attic :
    ∃ n, Net.ofContract {} (some Contract.attic) = .ok n ∧ ∃ q₁ q₂ q₃ q₄ : Place,
      (Net.validate Labels.default (some n)).warningsOf .connectivity =
        [.isolatedPlace q₁, .isolatedPlace q₂, .isolatedPlace q₃, .isolatedPlace q₄] ∧
      q₁.name = "total" ∧ q₂.name = "notes" ∧ q₃.name = "constructor_entry" ∧
      q₄.name = "ping_entry" := by
  refine ⟨_, rfl, ?_⟩
  obtain ⟨p, vars, strands, -, -, hvars, hstrands, hwarnings⟩ :=
    Net.ofContract_connectivity (o := {}) (c := Contract.attic) rfl
  obtain ⟨v₁, vars₁, h₁, hvars₁, rfl⟩ := List.forall₂_cons_left_iff.1 hvars
  obtain ⟨v₂, vars₂, -, hvars₂, rfl⟩ := List.forall₂_cons_left_iff.1 hvars₁
  obtain ⟨v₃, vars₃, h₃, hvars₃, rfl⟩ := List.forall₂_cons_left_iff.1 hvars₂
  obtain rfl := List.forall₂_nil_left_iff.1 hvars₃
  obtain ⟨s₁, strands₁, f₁, hstrands₁, rfl⟩ := List.forall₂_cons_left_iff.1 hstrands
  obtain ⟨s₂, strands₂, f₂, hstrands₂, rfl⟩ := List.forall₂_cons_left_iff.1 hstrands₁
  obtain ⟨s₃, strands₃, -, -, rfl⟩ := List.forall₂_cons_left_iff.1 hstrands₂
  refine ⟨v₁, v₃, s₁.entry, s₂.entry, (hwarnings Labels.default).1.trans ?_, h₁.name, h₃.name,
    f₁.name, f₂.name⟩
  have hwrites : ¬Contract.attic.Writes 0 ∧ Contract.attic.Writes 1 ∧ ¬Contract.attic.Writes 2 := by
    decide
  simp only [List.zipIdx_cons, List.zipIdx_nil, List.filter_cons, hwrites]
  rfl

end ContractNet
