import ContractNet.Proofs.Net.DataFlow
import Mathlib.Data.List.Perm.Subperm

/-!
# The allocation of ids

One counter hands out the ids of a draft, whatever is done with it.

* `Draft.perform` does a sequence of operations to a draft, one after the other;
* `Draft.Ordered`: along each list of the page, the numbers of the ids increase; every run keeps it
  (`Draft.Run.ordered`);
* `Draft.allocated_perform`: what was handed out went to elements or was asked for by itself;
* `Draft.perform_allocation`: the ids after any operations and, for a contract, which and how many
  they are.
-/

namespace ContractNet

namespace Draft

/-! ### Operations -/

/-- An operation on a draft. -/
inductive Op where
  | place (name : Text) (marking : Option Text)
  | transition (name : Text) (guard : Option Text)
  | arc (source target inscription : Text)
  | flow (source event target taken given : Text)
  /-- An id is handed out for nothing. -/
  | nextId
deriving DecidableEq

/-- The draft after an operation. -/
def Op.apply (d : Draft) : Op → Draft
  | place name marking => d.addPlace name marking
  | transition name guard => d.addTransition name guard
  | arc source target inscription => d.addArc source target inscription
  | flow source event target taken given => d.addFlow source event target taken given
  | nextId => d.skipId

/-- The draft after a sequence of operations. -/
def perform (d : Draft) (ops : List Op) : Draft := ops.foldl Op.apply d

theorem Op.run (d : Draft) (op : Op) : d.Run (op.apply d) := by
  cases op with
  | place name marking => exact (Step.place ..).run
  | transition name guard => exact (Step.transition ..).run
  | arc source target inscription => exact (Step.arc ..).run
  | flow source event target taken given => exact (Step.arc ..).run.trans (Step.arc ..).run
  | nextId => exact Step.skip.run

theorem run_perform (d : Draft) (ops : List Op) : d.Run (d.perform ops) := by
  induction ops generalizing d with
  | nil => exact Relation.ReflTransGen.refl
  | cons op ops ih => exact (op.run d).trans (ih _)

/-! ### The order of ids -/

/-- The ids are a stem followed by increasing numbers below `n`. -/
def Ascending (stem : Text) (n : Nat) (ids : List Text) : Prop :=
  ∃ ks : List Nat, ks.Pairwise (· < ·) ∧ (∀ k ∈ ks, k < n) ∧
    ids = ks.map fun k => stem ++ Text.decimal k

theorem Ascending.mono {stem : Text} {n m : Nat} {ids : List Text} (h : Ascending stem n ids)
    (hnm : n ≤ m) : Ascending stem m ids := by
  obtain ⟨ks, hks, hlt, rfl⟩ := h
  exact ⟨ks, hks, fun k hk => Nat.lt_of_lt_of_le (hlt k hk) hnm, rfl⟩

/-- The next id comes last. -/
theorem Ascending.concat {stem : Text} {n : Nat} {ids : List Text} (h : Ascending stem n ids) :
    Ascending stem (n + 1) (ids ++ [stem ++ Text.decimal n]) := by
  obtain ⟨ks, hks, hlt, rfl⟩ := h
  refine ⟨ks ++ [n], ?_, fun k hk => ?_, by simp⟩
  · rw [List.pairwise_append]
    exact ⟨hks, List.pairwise_singleton .., by simpa using hlt⟩
  · rcases List.mem_append.1 hk with hk | hk
    · exact Nat.lt_succ_of_lt (hlt k hk)
    · rw [List.mem_singleton.1 hk]
      exact Nat.lt_succ_self n

/-- Along each list of the page, the numbers of the ids increase. -/
structure Ordered (d : Draft) : Prop where
  places : Ascending d.stem d.allocated (d.page.places.map (·.id))
  transitions : Ascending d.stem d.allocated (d.page.transitions.map (·.id))
  arcs : Ascending d.stem d.allocated (d.page.arcs.map (·.id))

theorem ordered_empty (pageId stem : Text) : (empty pageId stem).Ordered := by
  have hnil : Ascending stem 0 [] := ⟨[], .nil, by simp, rfl⟩
  exact ⟨hnil, hnil, hnil⟩

theorem Step.ordered {d d' : Draft} (hs : d.Step d') (h : d.Ordered) : d'.Ordered := by
  have hle : d.allocated ≤ d.allocated + 1 := Nat.le_succ _
  cases hs with
  | place name marking =>
    refine ⟨?_, h.transitions.mono hle, h.arcs.mono hle⟩
    simpa [addPlace, nextId] using h.places.concat
  | transition name guard =>
    refine ⟨h.places.mono hle, ?_, h.arcs.mono hle⟩
    simpa [addTransition, nextId] using h.transitions.concat
  | arc source target inscription =>
    refine ⟨h.places.mono hle, h.transitions.mono hle, ?_⟩
    simpa [addArc, nextId] using h.arcs.concat
  | skip => exact ⟨h.places.mono hle, h.transitions.mono hle, h.arcs.mono hle⟩

theorem Run.ordered {d d' : Draft} (hr : d.Run d') (h : d.Ordered) : d'.Ordered := by
  induction hr with
  | refl => exact h
  | tail _ hs ih => exact hs.ordered ih

/-! ### The number of ids -/

/-- What an operation hands out goes to elements, unless the operation is to hand out an id. -/
theorem Op.allocated_apply {d : Draft} {m : Nat} (h : d.allocated = d.page.ids.length + m)
    (op : Op) : (op.apply d).allocated =
      (op.apply d).page.ids.length + (m + if op = .nextId then 1 else 0) := by
  have hadds : ∀ {k d'}, d.Adds k d' → d'.allocated = d'.page.ids.length + m := by
    intro k d' hk
    rw [hk.allocated, hk.length, h]
    omega
  cases op with
  | place name marking => exact hadds (Adds.place ..)
  | transition name guard => exact hadds (Adds.transition ..)
  | arc source target inscription => exact hadds (Adds.arc ..)
  | flow source event target taken given =>
    exact hadds ((Adds.arc ..).trans (Adds.arc ..))
  | nextId =>
    simp only [apply, skipId, h, if_true]
    omega

theorem allocated_perform {d : Draft} {m : Nat} (h : d.allocated = d.page.ids.length + m)
    (ops : List Op) : (d.perform ops).allocated =
      (d.perform ops).page.ids.length + (m + ops.count .nextId) := by
  induction ops generalizing d m with
  | nil => exact h
  | cons op ops ih =>
    have hcount : m + (op :: ops).count .nextId =
        m + (if op = .nextId then 1 else 0) + ops.count .nextId := by
      rw [List.count_cons, beq_eq_decide]
      simp only [decide_eq_true_eq]
      omega
    rw [hcount]
    exact ih (Op.allocated_apply h op)

theorem length_ids (p : Page) :
    p.ids.length = p.places.length + p.transitions.length + p.arcs.length := by
  simp [Page.ids, Nat.add_assoc]

end Draft

/-! ### The ids of a contract -/

/-- The statement assigns to a variable of the contract. -/
def Statement.assignsIn (c : Contract) : Statement → Bool
  | operation op => c.stateVariables.any (·.name = op.target)
  | call _ | conditional _ | unknown => false

/-- The number of elements of the net: a place for each variable, an entry for each function, a
transition, a place and two arcs for each step of control, and two more arcs for each assignment to
a variable. -/
def Contract.elementCount (c : Contract) : Nat :=
  c.stateVariables.length + (c.allFunctions.map fun f =>
    1 + 4 * f.steps.length + 2 * f.body.countP (Statement.assignsIn c)).sum

theorem isSome_lastNamed? (ps : List Place) (name : Text) :
    (Draft.lastNamed? ps name).isSome = (ps.map (·.name)).any (· = name) := by
  rw [Bool.eq_iff_iff]
  simp [Draft.lastNamed?, List.find?_isSome]

theorem functionCount_eq {c : Contract} {vars : List Place}
    (hvars : List.Forall₂ StateVariable.HeldBy c.stateVariables vars) (f : Function) :
    Draft.functionCount vars f =
      1 + 4 * f.steps.length + 2 * f.body.countP (Statement.assignsIn c) := by
  have hbody : ∀ body : List Statement,
      ((body.filterMap (ControlStep.of? f.name)).map (Draft.stepCount vars)).sum =
        4 * (body.filter Statement.isStep).length + 2 * body.countP (Statement.assignsIn c) := by
    intro body
    induction body with
    | nil => rfl
    | cons st body ih =>
      cases st with
      | operation op =>
        have hcount : Draft.dataCount vars op =
            2 * if Statement.assignsIn c (.operation op) then 1 else 0 := by
          rw [Draft.dataCount, isSome_lastNamed?, ← map_name_eq hvars, List.any_map]
          change (if Statement.assignsIn c (.operation op) then 2 else 0) = _
          split <;> rfl
        simp only [ControlStep.of?, List.filterMap_cons, List.map_cons, List.sum_cons, ih,
          Draft.stepCount, Option.elim_some, hcount, List.countP_cons, List.filter_cons,
          Statement.isStep, if_true, List.length_cons]
        omega
      | conditional d =>
        simp only [ControlStep.of?, List.filterMap_cons, List.map_cons, List.sum_cons, ih,
          Draft.stepCount, Option.elim_none, List.countP_cons, List.filter_cons, Statement.isStep,
          if_true, List.length_cons, Statement.assignsIn, Bool.false_eq_true, if_false]
        omega
      | call d => exact ih
      | unknown => exact ih
  rw [Draft.functionCount, hbody, Function.steps, Nat.add_assoc]

theorem Draft.allocated_ofContract (o : NetOptions) (c : Contract) :
    (ofContract o c).allocated = c.elementCount ∧
      (ofContract o c).page.ids.length = c.elementCount := by
  obtain ⟨vars, hvars, hpage⟩ := addVariables_spec (empty o.pageId o.idStem) c.stateVariables
  have hplaces : ((empty o.pageId o.idStem).addVariables c.stateVariables).page.places = vars := by
    rw [hpage]
    rfl
  have hadds := adds_ofContract o c
  rw [hplaces, List.map_congr_left fun f _ => functionCount_eq hvars f] at hadds
  exact ⟨hadds.allocated.trans (Nat.zero_add _), hadds.length.trans (Nat.zero_add _)⟩

/-- No number is left out when a contract is drafted. -/
theorem Draft.ids_ofContract_perm (o : NetOptions) (c : Contract) :
    (ofContract o c).page.ids.Perm
      ((List.range c.elementCount).map fun k => o.idStem ++ Text.decimal k) := by
  obtain ⟨hallocated, hlength⟩ := allocated_ofContract o c
  have hnumbered := numbered_ofContract o c
  have hsub : (ofContract o c).page.ids ⊆
      (List.range c.elementCount).map fun k => o.idStem ++ Text.decimal k := by
    intro id hid
    obtain ⟨k, hk, rfl⟩ := hnumbered.below id hid
    rw [(run_ofContract o c).stem_eq]
    exact List.mem_map.2 ⟨k, List.mem_range.2 (hallocated ▸ hk), rfl⟩
  -- as many different ids as there are numbers are all of them
  refine (hnumbered.nodup.subperm hsub).perm_of_length_le (Nat.le_of_eq ?_)
  rw [hlength, List.length_map, List.length_range]

/-- **The allocation of ids.**  After any sequence of operations on an empty draft, all ids are
different, each list of the page has a stem with increasing numbers, and the counter tells the
number of elements and of ids that were asked for by themselves.  The ids of a compiled net are the
numbers from zero on, one for each element. -/
theorem Draft.perform_allocation :
    (∀ (pageId stem : Text) (ops : List Op) (d : Draft), d = (empty pageId stem).perform ops →
      d.page.ids.Nodup ∧
      Ascending stem d.allocated (d.page.places.map (·.id)) ∧
      Ascending stem d.allocated (d.page.transitions.map (·.id)) ∧
      Ascending stem d.allocated (d.page.arcs.map (·.id)) ∧
      d.allocated = d.page.places.length + d.page.transitions.length + d.page.arcs.length +
        ops.count .nextId) ∧
    ∀ (o : NetOptions) (c : Contract) (n : Net), Net.ofContract o (some c) = .ok n →
      ∃ p : Page, n.page = some p ∧
        p.ids.Perm
          ((List.range c.elementCount).map fun k => o.filled.idStem ++ Text.decimal k) := by
  constructor
  · rintro pageId stem ops d rfl
    have hrun := run_perform (empty pageId stem) ops
    obtain ⟨hplaces, htransitions, harcs⟩ := hrun.ordered (ordered_empty pageId stem)
    have hcount := allocated_perform (d := empty pageId stem) (m := 0) rfl ops
    rw [length_ids, Nat.zero_add] at hcount
    rw [hrun.stem_eq] at hplaces htransitions harcs
    exact ⟨(hrun.numbered (numbered_empty pageId stem)).nodup, hplaces, htransitions, harcs, hcount⟩
  · intro o c n hn
    rw [Net.eq_of_ofContract hn]
    exact ⟨_, rfl, ids_ofContract_perm o.filled c⟩

/-- Operations of all kinds, with an id that no element takes. -/
def Draft.sampleOps : List Op :=
  [.place "a" none, .nextId, .transition "t" (some "[x]"), .flow "id10" "id12" "id10" "x" "y",
    .arc "id12" "id10" "z"]

theorem Draft.perform_allocation_ledger :
    (((empty "page" "id1").perform sampleOps).page.ids.Nodup ∧
      ((empty "page" "id1").perform sampleOps).allocated = 1 + 1 + 3 + 1) ∧
    ∃ n p, Net.ofContract {} (some Contract.ledger) = .ok n ∧ n.page = some p ∧
      p.ids.Perm ((List.range 13).map fun k => "id" ++ Text.decimal k) := by
  obtain ⟨hnodup, -, -, -, hcount⟩ := perform_allocation.1 "page" "id1" sampleOps _ rfl
  obtain ⟨p, hp, hperm⟩ := perform_allocation.2 {} Contract.ledger _ rfl
  exact ⟨⟨hnodup, hcount⟩, _, p, rfl, hp, hperm⟩

end ContractNet
