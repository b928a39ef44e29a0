import ContractNet.Proofs.Net.Wiring
import Mathlib.Data.List.ModifyLast

/-!
# Extending a contract

What a contract leaves on the page stays there when the contract grows at its end: a draft is only
ever added to, so the net of the longer contract starts with that of the shorter one, ids included.

* `Page.Extends`: the lists of one page start with those of another; every run of additions to a
  draft extends its page (`Draft.Run.page_extends`);
* `Draft.addSteps_append` splits the steps of a function into two runs, the second of which goes on
  from the place where the first one ends;
* `Net.ofContract_extended`: **more functions, or more statements at the end of the last one, only
  add to the net**.
-/

namespace ContractNet

/-! ### Pages that only grow -/

/-- The places, transitions and arcs of the page `p'` start with those of `p`. -/
structure Page.Extends (p' p : Page) : Prop where
  places : p.places <+: p'.places
  transitions : p.transitions <+: p'.transitions
  arcs : p.arcs <+: p'.arcs

namespace Page

theorem Extends.refl (p : Page) : p.Extends p :=
  ⟨List.prefix_refl _, List.prefix_refl _, List.prefix_refl _⟩

theorem Extends.trans {p p' p'' : Page} (h' : p''.Extends p') (h : p'.Extends p) : p''.Extends p :=
  ⟨h.places.trans h'.places, h.transitions.trans h'.transitions, h.arcs.trans h'.arcs⟩

theorem extended_extends (p : Page) (places : List Place) (transitions : List Transition)
    (arcs : List Arc) : (p.extended places transitions arcs).Extends p :=
  ⟨List.prefix_append _ _, List.prefix_append _ _, List.prefix_append _ _⟩

end Page

namespace Draft

variable {d d' : Draft}

/-- One addition leaves all that is on the page where it is. -/
theorem Step.page_extends (h : d.Step d') : d'.page.Extends d.page := by
  cases h with
  | place name marking =>
    rw [addPlace_page]
    exact Page.extended_extends ..
  | transition name guard =>
    rw [addTransition_page]
    exact Page.extended_extends ..
  | arc source target inscription =>
    rw [addArc_page]
    exact Page.extended_extends ..
  | skip => exact Page.Extends.refl _

/-- Any number of additions do. -/
theorem Run.page_extends (h : d.Run d') : d'.page.Extends d.page := by
  induction h with
  | refl => exact Page.Extends.refl _
  | tail _ hs ih => exact hs.page_extends.trans ih

/-! ### Splitting runs -/

variable (d) (o : NetOptions) (vars : List Place)

/-- The second part of the steps goes on from the place where control is after the first. -/
theorem addSteps_append (current : Text) (ss ss' : List ControlStep) :
    ∃ current', d.addSteps o vars current (ss ++ ss') =
      (d.addSteps o vars current ss).addSteps o vars current' ss' := by
  induction ss generalizing d current with
  | nil => exact ⟨current, rfl⟩
  | cons s ss ih => exact ih (d.addStep o vars current s).1 (d.addStep o vars current s).2

end Draft

/-! ### Longer contracts -/

/-- The function with more statements at its end. -/
def Function.followedBy (f : Function) (ss : List Statement) : Function :=
  { f with body := f.body ++ ss }

/-- The contract with more functions at its end. -/
def Contract.withFunctions (c : Contract) (fs : List Function) : Contract :=
  { c with functions := c.functions ++ fs }

/-- The contract with more statements at the end of the function that is drafted last, which is the
constructor if there is no other function. -/
def Contract.followedBy (c : Contract) (ss : List Statement) : Contract :=
  if c.functions = [] then { c with constructor := c.constructor.map (·.followedBy ss) }
  else { c with functions := c.functions.modifyLast (·.followedBy ss) }

theorem Draft.run_addFunction_followedBy (d : Draft) (o : NetOptions) (vars : List Place)
    (marked : Bool) (f : Function) (ss : List Statement) :
    (d.addFunction o vars marked f).Run (d.addFunction o vars marked (f.followedBy ss)) := by
  have hsteps : (f.followedBy ss).body.filterMap (ControlStep.of? f.name) =
      f.body.filterMap (ControlStep.of? f.name) ++ ss.filterMap (ControlStep.of? f.name) :=
    List.filterMap_append
  obtain ⟨current, hsplit⟩ := addSteps_append
    (d.addPlace (f.name ++ "_entry") (if marked then some o.unit else none)) o vars d.nextId
    (f.body.filterMap (ControlStep.of? f.name)) (ss.filterMap (ControlStep.of? f.name))
  rw [← hsteps] at hsplit
  change Run _ (addSteps _ o vars _ _)
  exact hsplit ▸ (adds_addSteps ..).run

/-- The functions of the longer contract differ from those of the shorter one in the last only. -/
theorem Contract.markedFunctions_followedBy (c : Contract) (ss : List Statement) :
    (c.followedBy ss).markedFunctions =
      c.markedFunctions.modifyLast fun f => (f.1, f.2.followedBy ss) := by
  rcases List.eq_nil_or_concat c.functions with hnil | ⟨fs, f, hconcat⟩
  · rw [followedBy, if_pos hnil, markedFunctions, markedFunctions, hnil]
    cases c.constructor <;> rfl
  · have hne : c.functions ≠ [] := by simp [hconcat]
    rw [followedBy, if_neg hne, markedFunctions, markedFunctions, hconcat]
    simp only [List.concat_eq_append, List.modifyLast_concat, List.map_append, List.map_cons,
      List.map_nil, ← List.append_assoc]

theorem Contract.markedFunctions_withFunctions (c : Contract) (fs : List Function) :
    (c.withFunctions fs).markedFunctions = c.markedFunctions ++ fs.map (false, ·) := by
  rw [withFunctions, markedFunctions, markedFunctions, List.map_append, List.append_assoc]

theorem Contract.map_markedFunctions (c : Contract) :
    c.markedFunctions.map Prod.snd = c.allFunctions := by
  simp [markedFunctions, allFunctions, Function.comp_def]

namespace Draft

variable (o : NetOptions) (c : Contract)

theorem run_ofContract_withFunctions (fs : List Function) :
    (ofContract o c).Run (ofContract o (c.withFunctions fs)) := by
  rw [ofContract_eq_foldl o c rfl, ofContract_eq_foldl o (c.withFunctions fs) rfl,
    Contract.markedFunctions_withFunctions, List.foldl_append]
  exact (Adds.foldl (fun _ _ => adds_addFunction ..) _ _).run

theorem run_ofContract_followedBy (ss : List Statement) :
    (ofContract o c).Run (ofContract o (c.followedBy ss)) := by
  have hvars : (c.followedBy ss).stateVariables = c.stateVariables := by
    rw [Contract.followedBy]
    split <;> rfl
  rw [ofContract_eq_foldl o c rfl, ofContract_eq_foldl o (c.followedBy ss) rfl, hvars,
    Contract.markedFunctions_followedBy]
  rcases List.eq_nil_or_concat c.markedFunctions with hnil | ⟨fs, f, hconcat⟩
  · rw [hnil]
    exact Relation.ReflTransGen.refl
  · -- up to the last function both drafts are the same
    rw [hconcat, List.concat_eq_append, List.modifyLast_concat, List.foldl_append,
      List.foldl_append]
    exact run_addFunction_followedBy ..

end Draft

theorem Contract.mem_body_followedBy {c : Contract} {ss : List Statement} {f : Function}
    (hf : f ∈ (c.followedBy ss).allFunctions) {st : Statement} (hst : st ∈ f.body) :
    (∃ g ∈ c.allFunctions, st ∈ g.body) ∨ st ∈ ss := by
  rw [← map_markedFunctions, markedFunctions_followedBy] at hf
  simp only [← map_markedFunctions]
  rcases List.eq_nil_or_concat c.markedFunctions with hnil | ⟨fs, last, hconcat⟩
  · rw [hnil] at hf
    cases hf
  · rw [hconcat, List.concat_eq_append, List.modifyLast_concat, List.map_append,
      List.mem_append] at hf
    rw [hconcat, List.concat_eq_append, List.map_append]
    rcases hf with hf | hf
    · exact .inl ⟨f, List.mem_append_left _ hf, hst⟩
    · obtain rfl := List.mem_singleton.1 hf
      rcases List.mem_append.1 hst with hst | hst
      · exact .inl ⟨last.2, List.mem_append_right _ (List.mem_singleton_self _), hst⟩
      · exact .inr hst

/-- The page of the net `n'` starts with that of `n`. -/
def Net.Extends (n' n : Net) : Prop :=
  ∃ p p', n.page = some p ∧ n'.page = some p' ∧ p'.Extends p

theorem Net.extends_of_run {o : NetOptions} {c c' : Contract} {n n' : Net}
    (h : Net.ofContract o (some c) = .ok n) (h' : Net.ofContract o (some c') = .ok n')
    (hrun : (Draft.ofContract o.filled c).Run (Draft.ofContract o.filled c')) : n'.Extends n := by
  rw [Net.eq_of_ofContract h, Net.eq_of_ofContract h']
  exact ⟨_, _, rfl, rfl, hrun.page_extends⟩

/-- **Compilation is stable under extension.**  When functions are added at the end of a contract
and the longer contract has a net, its places, transitions and arcs start with those of the shorter
one, element by element.  So do those after assignments, conditions or calls are added at the end of
the function that is drafted last, and then there always is a net. -/
theorem Net.ofContract_extended {o : NetOptions} {c : Contract} {n : Net}
    (h : Net.ofContract o (some c) = .ok n) :
    (∀ fs n', Net.ofContract o (some (c.withFunctions fs)) = .ok n' → n'.Extends n) ∧
    ∀ ss, Statement.unknown ∉ ss →
      ∃ n', Net.ofContract o (some (c.followedBy ss)) = .ok n' ∧ n'.Extends n := by
  refine ⟨fun fs n' h' => ?_, fun ss hss => ?_⟩
  · exact Net.extends_of_run h h' (Draft.run_ofContract_withFunctions o.filled c fs)
  · have hknown : ∀ f ∈ (c.followedBy ss).allFunctions, Statement.unknown ∉ f.body := by
      intro f hf hmem
      rcases Contract.mem_body_followedBy hf hmem with ⟨g, hg, hmem⟩ | hmem
      · exact (Net.ofContract_eq_ok_iff.1 h).1 g hg hmem
      · exact hss hmem
    have h' := (Net.ofContract_eq_ok_iff (o := o)).2 ⟨hknown, rfl⟩
    exact ⟨_, h', Net.extends_of_run h h' (Draft.run_ofContract_followedBy o.filled c ss)⟩

/-- A function with an assignment. -/
def Function.reset : Function where
  name := "reset"
  visibility := "external"
  body := [.operation { target := "count", expression := "0", operator := "=" }]

/-- Statements of each known kind. -/
def Statement.report : List Statement :=
  [.conditional { kind := "assert", condition := "count > 0", startLine := 12 },
    .call { name := "log", arguments := some ["count"], line := 13 },
    .operation { target := "count", expression := "2", operator := "*=" }]

theorem Net.ofContract_extended_counter : ∃ n n₁ n₂,
    Net.ofContract {} (some Contract.counter) = .ok n ∧
    n.page.map (·.transitions.length) = some 3 ∧
    Net.ofContract {} (some (Contract.counter.withFunctions [Function.reset])) = .ok n₁ ∧
    n₁.Extends n ∧ n₁.page.map (·.transitions.length) = some 4 ∧
    Net.ofContract {} (some (Contract.counter.followedBy Statement.report)) = .ok n₂ ∧
    n₂.Extends n ∧ n₂.page.map (·.transitions.length) = some 5 := by
  have h : Net.ofContract {} (some Contract.counter) = .ok _ := rfl
  have h₁ : Net.ofContract {} (some (Contract.counter.withFunctions [Function.reset])) = .ok _ := rfl
  have h₂ : Net.ofContract {} (some (Contract.counter.followedBy Statement.report)) = .ok _ := rfl
  obtain ⟨hfunctions, hstatements⟩ := Net.ofContract_extended h
  obtain ⟨n₂, h₂', hextends⟩ := hstatements Statement.report (by decide)
  obtain rfl := Except.ok.inj (h₂.symm.trans h₂')
  exact ⟨_, _, _, h, rfl, h₁, hfunctions _ _ h₁, rfl, h₂, hextends, rfl⟩

end ContractNet
