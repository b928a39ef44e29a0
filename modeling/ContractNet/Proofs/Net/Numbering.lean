import ContractNet.Net.OfContract
import ContractNet.Proofs.Text.Basic
import Mathlib.Algebra.BigOperators.Group.List.Basic
import Mathlib.Algebra.GroupWithZero.Nat
import Mathlib.Data.List.Perm.Basic
import Mathlib.Logic.Relation

/-!
# The numbering of drafts

Every element of a draft takes the next id, and one counter serves places, transitions and arcs.

* `Draft.Step` is one addition to a draft, `Draft.Run` any number of them;
* `Draft.Numbered` says that the ids of a draft are different and come from the numbers handed
  out; every run keeps it (`Draft.Run.numbered`);
* `Draft.Adds` says that a run adds a number of elements and skips no id;
* the drafting of a contract is such a run (`Draft.adds_ofContract`), so its ids are different.
-/

namespace ContractNet

namespace Draft

/-- One addition to a draft. -/
inductive Step (d : Draft) : Draft → Prop
  | place (name : Text) (marking : Option Text) : Step d (d.addPlace name marking)
  | transition (name : Text) (guard : Option Text) : Step d (d.addTransition name guard)
  | arc (source target inscription : Text) : Step d (d.addArc source target inscription)
  | skip : Step d d.skipId

/-- Any number of additions to a draft. -/
def Run : Draft → Draft → Prop := Relation.ReflTransGen Step

/-- The ids of the elements are different, and each comes from a number handed out before. -/
structure Numbered (d : Draft) : Prop where
  nodup : d.page.ids.Nodup
  below : ∀ id ∈ d.page.ids, ∃ k < d.allocated, id = d.stem ++ Text.decimal k

/-! ### Runs keep the numbering -/

theorem numbered_empty (pageId stem : Text) : (empty pageId stem).Numbered :=
  ⟨by simp [empty, Page.ids], by simp [empty, Page.ids]⟩

theorem Numbered.nextId_notMem {d : Draft} (h : d.Numbered) : d.nextId ∉ d.page.ids := by
  intro hmem
  obtain ⟨k, hk, he⟩ := h.below _ hmem
  have := Text.decimal_injective (List.append_cancel_left he)
  omega

/-- An element with the next id, in whichever list it stands. -/
theorem Numbered.add {d d' : Draft} (h : d.Numbered)
    (hids : d'.page.ids.Perm (d.nextId :: d.page.ids)) (hstem : d'.stem = d.stem)
    (halloc : d'.allocated = d.allocated + 1) : d'.Numbered := by
  refine ⟨hids.nodup_iff.2 (List.nodup_cons.2 ⟨h.nextId_notMem, h.nodup⟩), fun id hid => ?_⟩
  rw [hstem, halloc]
  rcases List.mem_cons.1 (hids.mem_iff.1 hid) with rfl | hid
  · exact ⟨d.allocated, Nat.lt_succ_self _, rfl⟩
  · obtain ⟨k, hk, rfl⟩ := h.below id hid
    exact ⟨k, Nat.lt_succ_of_lt hk, rfl⟩

theorem Step.numbered {d d' : Draft} (hs : d.Step d') (h : d.Numbered) : d'.Numbered := by
  cases hs with
  | place name marking =>
    refine h.add ?_ rfl rfl
    simp only [Page.ids, addPlace, List.map_append, List.map_cons, List.map_nil,
      List.append_assoc, List.singleton_append]
    exact List.perm_middle
  | transition name guard =>
    refine h.add ?_ rfl rfl
    simp only [Page.ids, addTransition, List.map_append, List.map_cons, List.map_nil]
    rw [List.append_assoc, List.append_assoc, ← List.append_assoc, List.singleton_append]
    exact List.perm_middle.trans (List.Perm.cons _ (by rw [List.append_assoc]))
  | arc source target inscription =>
    refine h.add ?_ rfl rfl
    simp only [Page.ids, addArc, List.map_append, List.map_cons, List.map_nil]
    rw [← List.append_assoc]
    exact List.perm_append_singleton _ _
  | skip =>
    refine ⟨h.nodup, fun id hid => ?_⟩
    obtain ⟨k, hk, rfl⟩ := h.below id hid
    exact ⟨k, Nat.lt_succ_of_lt hk, rfl⟩

theorem Run.numbered {d d' : Draft} (hr : d.Run d') (h : d.Numbered) : d'.Numbered := by
  induction hr with
  | refl => exact h
  | tail _ hs ih => exact hs.numbered ih

theorem Run.stem_eq {d d' : Draft} (hr : d.Run d') : d'.stem = d.stem := by
  induction hr with
  | refl => rfl
  | tail _ hs ih => cases hs <;> exact ih

/-! ### Drafting a contract is a run -/

theorem Run.trans {d d' d'' : Draft} (h : d.Run d') (h' : d'.Run d'') : d.Run d'' :=
  Relation.ReflTransGen.trans h h'

theorem Step.run {d d' : Draft} (h : d.Step d') : d.Run d' := Relation.ReflTransGen.single h

/-- `k` elements are added to a draft, and no id is handed out for nothing. -/
structure Adds (d : Draft) (k : Nat) (d' : Draft) : Prop where
  run : d.Run d'
  allocated : d'.allocated = d.allocated + k
  length : d'.page.ids.length = d.page.ids.length + k

namespace Adds

variable {d d' d'' : Draft} {k k' : Nat}

theorem refl (d : Draft) : d.Adds 0 d := ⟨Relation.ReflTransGen.refl, rfl, rfl⟩

theorem trans (h : d.Adds k d') (h' : d'.Adds k' d'') : d.Adds (k + k') d'' :=
  ⟨h.run.trans h'.run, by rw [h'.allocated, h.allocated, Nat.add_assoc],
    by rw [h'.length, h.length, Nat.add_assoc]⟩

theorem place (d : Draft) (name : Text) (marking : Option Text) :
    d.Adds 1 (d.addPlace name marking) :=
  ⟨(Step.place ..).run, rfl, by simp [Page.ids, addPlace]; omega⟩

theorem transition (d : Draft) (name : Text) (guard : Option Text) :
    d.Adds 1 (d.addTransition name guard) :=
  ⟨(Step.transition ..).run, rfl, by simp [Page.ids, addTransition]; omega⟩

theorem arc (d : Draft) (source target inscription : Text) :
    d.Adds 1 (d.addArc source target inscription) :=
  ⟨(Step.arc ..).run, rfl, by simp [Page.ids, addArc]; omega⟩

/-- If each item adds its share, the list adds all of them. -/
theorem foldl {α : Type} {f : Draft → α → Draft} {share : α → Nat}
    (hf : ∀ (d : Draft) (a : α), d.Adds (share a) (f d a)) (as : List α) (d : Draft) :
    d.Adds (as.map share).sum (as.foldl f d) := by
  induction as generalizing d with
  | nil => exact refl d
  | cons a as ih =>
    rw [List.map_cons, List.sum_cons]
    exact (hf d a).trans (ih _)

end Adds

/-- The number of arcs between the transition of an assignment and the place of its variable. -/
def dataCount (vars : List Place) (op : Operation) : Nat :=
  if (lastNamed? vars op.target).isSome then 2 else 0

/-- The number of elements that a step of control adds: a transition and the arc to it, arcs to
and from a variable, and a place with the arc to it. -/
def stepCount (vars : List Place) (s : ControlStep) : Nat :=
  2 + s.operation.elim 0 (dataCount vars) + 2

theorem adds_addVariables (d : Draft) (vs : List StateVariable) :
    d.Adds vs.length (d.addVariables vs) := by
  have h := Adds.foldl (fun d (v : StateVariable) =>
    Adds.place d v.name (if v.initial.isEmpty then none else some v.initial)) vs d
  rwa [List.map_const', List.sum_replicate_nat, Nat.mul_one] at h

theorem adds_addData (d : Draft) (o : NetOptions) (vars : List Place) (t : Text)
    (op : Operation) : d.Adds (dataCount vars op) (d.addData o vars t op) := by
  unfold addData dataCount
  cases lastNamed? vars op.target with
  | some p => exact (Adds.arc ..).trans (Adds.arc ..)
  | none => exact Adds.refl d

theorem adds_addStep (d : Draft) (o : NetOptions) (vars : List Place) (current : Text)
    (s : ControlStep) : d.Adds (stepCount vars s) (d.addStep o vars current s).1 := by
  have hfront : d.Adds 2 ((d.addTransition s.name s.guard).addArc current d.nextId o.control) :=
    (Adds.transition ..).trans (Adds.arc ..)
  have hback (d' : Draft) (source target : Text) :
      d'.Adds 2 ((d'.addPlace s.after none).addArc source target o.control) :=
    (Adds.place ..).trans (Adds.arc ..)
  cases hop : s.operation with
  | none =>
    simpa only [addStep, stepCount, hop, Option.elim_none] using hfront.trans (hback ..)
  | some op =>
    simpa only [addStep, stepCount, hop, Option.elim_some] using
      (hfront.trans (adds_addData ..)).trans (hback ..)

theorem adds_addSteps (d : Draft) (o : NetOptions) (vars : List Place) (current : Text)
    (ss : List ControlStep) :
    d.Adds (ss.map (stepCount vars)).sum (d.addSteps o vars current ss) := by
  induction ss generalizing d current with
  | nil => exact Adds.refl d
  | cons s ss ih =>
    rw [List.map_cons, List.sum_cons]
    exact (adds_addStep d o vars current s).trans (ih _ _)

/-- The number of elements that a function adds. -/
def functionCount (vars : List Place) (f : Function) : Nat :=
  1 + ((f.body.filterMap (ControlStep.of? f.name)).map (stepCount vars)).sum

theorem adds_addFunction (d : Draft) (o : NetOptions) (vars : List Place) (marked : Bool)
    (f : Function) : d.Adds (functionCount vars f) (d.addFunction o vars marked f) :=
  (Adds.place ..).trans (adds_addSteps ..)

/-- Drafting a contract adds its elements one after the other. -/
theorem adds_ofContract (o : NetOptions) (c : Contract) :
    (empty o.pageId o.idStem).Adds
      (c.stateVariables.length + (c.allFunctions.map (functionCount
        ((empty o.pageId o.idStem).addVariables c.stateVariables).page.places)).sum)
      (ofContract o c) := by
  rw [Contract.allFunctions, List.map_append, List.sum_append, ← Nat.add_assoc]
  exact ((adds_addVariables ..).trans (Adds.foldl (fun _ _ => adds_addFunction ..) _ _)).trans
    (Adds.foldl (fun _ _ => adds_addFunction ..) _ _)

theorem run_ofContract (o : NetOptions) (c : Contract) :
    (empty o.pageId o.idStem).Run (ofContract o c) := (adds_ofContract o c).run

/-- **The ids of a drafted contract are different.** -/
theorem numbered_ofContract (o : NetOptions) (c : Contract) : (ofContract o c).Numbered :=
  (run_ofContract o c).numbered (numbered_empty _ _)

/-- No id of a drafted contract is empty, if ids start with something. -/
theorem ne_nil_of_mem_ids {o : NetOptions} (ho : o.idStem ≠ []) (c : Contract) {id : Text}
    (h : id ∈ (ofContract o c).page.ids) : id ≠ [] := by
  obtain ⟨k, -, rfl⟩ := (numbered_ofContract o c).below id h
  rw [(run_ofContract o c).stem_eq]
  exact List.append_ne_nil_of_left_ne_nil ho _

end Draft

end ContractNet
