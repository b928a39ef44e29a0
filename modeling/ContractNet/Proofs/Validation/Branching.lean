import ContractNet.Proofs.Net.Reachability
import ContractNet.Proofs.Validation.Faults
import Mathlib.Data.Set.Card

/-!
# Branches of control

The analysis of the control flow lists a node as a branch once for each search that comes by it and
finds more than one control arc there.  That is the set of places at which control branches only if
chains do not join before a branch, arcs are not drawn twice, and ids are in order.

* `Page.IsBranchPoint` says at which places control branches, `Page.Splits` which nodes are listed;
* `Page.count_branching`: how often a node is listed;
* `Page.branching_enumerates_iff`: when the list enumerates the branch points;
* `Net.branching_counts`: the same for nets, with the warning that counts the branches.
-/

namespace ContractNet

theorem count_flatMap_of_nodup {α β : Type} [BEq β] [LawfulBEq β] {f : α → List β} {as : List α}
    (h : ∀ a ∈ as, (f a).Nodup) (b : β) :
    (as.flatMap f).count b = as.countP fun a => (f a).contains b := by
  induction as with
  | nil => rfl
  | cons a as ih =>
    obtain ⟨ha, has⟩ := List.forall_mem_cons.1 h
    rw [List.flatMap_cons, List.count_append, ih has, List.countP_cons, Nat.add_comm]
    congr 1
    split_ifs with hb
    · exact List.count_eq_one_of_mem ha (List.contains_iff_mem.1 hb)
    · exact List.count_eq_zero.2 fun hmem => hb (List.contains_iff_mem.2 hmem)

namespace Page

variable (p : Page) (l : Labels)

/-- Control reaches the node from a place that it starts from. -/
def IsReached (x : Text) : Prop := ∃ q ∈ p.places, p.Starts l q ∧ p.Reaches l q.id x

/-- Control arcs lead from the node to different nodes. -/
def LeadsApart (x : Text) : Prop := ∃ y z, y ≠ z ∧ p.Leads l x y ∧ p.Leads l x z

/-- Control reaches the place and goes on from there to different nodes. -/
structure IsBranchPoint (x : Text) : Prop where
  place : x ∈ p.places.map (·.id)
  reached : p.IsReached l x
  apart : p.LeadsApart l x

/-- The node is no transition, and more than one control arc leaves it. -/
def Splits (x : Text) : Prop :=
  x ∉ p.transitions.map (·.id) ∧
    1 < p.arcs.countP fun a => a.inscription = l.control ∧ a.source = x

instance : DecidablePred (p.Splits l) := fun x =>
  inferInstanceAs (Decidable (x ∉ p.transitions.map (·.id) ∧
    1 < p.arcs.countP fun a => a.inscription = l.control ∧ a.source = x))

/-- How control has to branch for the list of branches to enumerate the branch points. -/
structure BranchesPlainly : Prop where
  /-- Chains do not join before a branch. -/
  once : ∀ x, p.Splits l x → p.places.countP (fun q => p.Starts l q ∧ p.Reaches l q.id x) ≤ 1
  /-- Branches are at places. -/
  place : ∀ x, p.Splits l x → p.IsReached l x → x ∈ p.places.map (·.id)
  /-- Where several control arcs leave, not all of them lead to the same node. -/
  apart : ∀ x, p.Splits l x → p.IsReached l x → p.LeadsApart l x
  /-- No branch point shares its id with a transition. -/
  named : ∀ x, p.IsBranchPoint l x → x ∉ p.transitions.map (·.id)

variable {p l}

/-! ### How often a node is listed -/

theorem length_controlNext (p : Page) (l : Labels) (x : Text) :
    (p.controlNext l x).length =
      p.arcs.countP fun a => a.inscription = l.control ∧ a.source = x := by
  rw [controlNext, List.length_map, controlArcs, List.filter_filter, ← List.countP_eq_length_filter]
  refine List.countP_congr fun a _ => ?_
  simp [and_comm]

theorem mem_branches {q : Place} {x : Text} :
    x ∈ p.branches l q ↔ p.Reaches l q.id x ∧ p.Splits l x := by
  rw [branches, List.mem_filter, mem_reached, Bool.and_eq_true, Bool.not_eq_true',
    ← Bool.not_eq_true, isTransition_iff, decide_eq_true_iff, length_controlNext]
  rfl

/-- **A node is listed** once for each place that control starts from and reaches it from. -/
theorem count_branching (p : Page) (l : Labels) (x : Text) :
    (p.controlFlow l).branching.count x =
      if p.Splits l x then p.places.countP fun q => p.Starts l q ∧ p.Reaches l q.id x else 0 := by
  change ((p.entries l).flatMap (p.branches l)).count x = _
  rw [count_flatMap_of_nodup fun q _ => (nodup_reached p l q.id).filter _, entries_eq_filter,
    List.countP_filter]
  split_ifs with hx
  · refine List.countP_congr fun q _ => ?_
    simp [mem_branches, hx, and_comm]
  · refine List.countP_eq_zero.2 fun q _ => ?_
    simp [mem_branches, hx]

theorem mem_branching {x : Text} :
    x ∈ (p.controlFlow l).branching ↔ p.Splits l x ∧ p.IsReached l x := by
  rw [← List.count_pos_iff, count_branching]
  split_ifs with hx
  · rw [List.countP_pos_iff]
    simp [IsReached, hx]
  · simp [hx]

/-! ### Branch points -/

/-- Where control arcs lead to different nodes, there are at least two of them. -/
theorem LeadsApart.one_lt_countP {x : Text} (h : p.LeadsApart l x) :
    1 < p.arcs.countP fun a => a.inscription = l.control ∧ a.source = x := by
  obtain ⟨y, z, hne, hy, hz⟩ := h
  rw [← length_controlNext]
  have hsub : [y, z] ⊆ p.controlNext l x := by
    simp [List.cons_subset, mem_controlNext, hy, hz]
  have hnodup : [y, z].Nodup := by simpa using hne
  exact (hnodup.subperm hsub).length_le

/-- **When the list enumerates the branch points.** -/
theorem branching_enumerates_iff (p : Page) (l : Labels) :
    ((p.controlFlow l).branching.Nodup ∧
      ∀ x, x ∈ (p.controlFlow l).branching ↔ p.IsBranchPoint l x) ↔ p.BranchesPlainly l := by
  constructor
  · rintro ⟨hnodup, hmem⟩
    have hpoint : ∀ x, p.Splits l x → p.IsReached l x → p.IsBranchPoint l x :=
      fun x hx hreached => (hmem x).1 (mem_branching.2 ⟨hx, hreached⟩)
    refine ⟨fun x hx => ?_, fun x hx h => (hpoint x hx h).place,
      fun x hx h => (hpoint x hx h).apart, fun x hx => ?_⟩
    · have hcount := List.nodup_iff_count_le_one.1 hnodup x
      rwa [count_branching, if_pos hx] at hcount
    · exact (mem_branching.1 ((hmem x).2 hx)).1.1
  · intro h
    refine ⟨List.nodup_iff_count_le_one.2 fun x => ?_, fun x => ?_⟩
    · rw [count_branching]
      split_ifs with hx
      · exact h.once x hx
      · exact Nat.zero_le 1
    · rw [mem_branching]
      constructor
      · rintro ⟨hx, hreached⟩
        exact ⟨h.place x hx hreached, hreached, h.apart x hx hreached⟩
      · intro hx
        exact ⟨⟨h.named x hx, hx.apart.one_lt_countP⟩, hx.reached⟩

theorem BranchesPlainly.length_branching (h : p.BranchesPlainly l) :
    (p.controlFlow l).branching.length = Set.ncard {x | p.IsBranchPoint l x} := by
  obtain ⟨hnodup, hmem⟩ := (branching_enumerates_iff p l).2 h
  have hset : {x | p.IsBranchPoint l x} = ↑(p.controlFlow l).branching.toFinset := by
    ext x
    simp [hmem]
  rw [hset, Set.ncard_coe_finset, List.toFinset_card_of_nodup hnodup]

/-- Validation warns of the branches that the analysis lists. -/
theorem branching_mem_warnings_iff {ids : List Text} :
    .branching ids ∈ (p.validate l).warnings ↔
      ids = (p.controlFlow l).branching ∧ ids ≠ [] := by
  rw [Report.warnings, Report.ofSeverity, List.mem_filter]
  change .branching ids ∈ p.findings l ∧ _ ↔ _
  rw [mem_findings_iff]
  change .branching ids ∈ p.checkControlFlow l ∧ _ ↔ _
  simp only [checkControlFlow, List.mem_append, List.mem_ite_nil_left, List.mem_singleton,
    List.isEmpty_iff, Finding.branching.injEq, reduceCtorEq, and_false, or_false,
    Finding.severity, decide_true, and_true]
  constructor
  · rintro ⟨hne, rfl⟩
    exact ⟨rfl, hne⟩
  · rintro ⟨rfl, hne⟩
    exact ⟨hne, rfl⟩

end Page

/-! ### The branches of any net -/

/-- **The branches of a net with a page.**  A node that is no transition and that more than one
control arc leaves is listed once for each place that control starts from and reaches it from; other
nodes are not listed.  So the list enumerates the branch points exactly if control branches plainly,
and then the warning of validation tells their number. -/
theorem Net.branching_counts {n : Net} {p : Page} (h : n.page = some p) (l : Labels) :
    (∀ x, (Net.controlFlow l (some n)).branching.count x =
      if p.Splits l.filled x then
        p.places.countP fun q => p.Starts l.filled q ∧ p.Reaches l.filled q.id x
      else 0) ∧
    (((Net.controlFlow l (some n)).branching.Nodup ∧
      ∀ x, x ∈ (Net.controlFlow l (some n)).branching ↔ p.IsBranchPoint l.filled x) ↔
        p.BranchesPlainly l.filled) ∧
    (∀ ids, .branching ids ∈ (Net.validate l (some n)).warnings ↔
      ids = (Net.controlFlow l (some n)).branching ∧ ids ≠ []) ∧
    (p.BranchesPlainly l.filled → ∀ ids, .branching ids ∈ (Net.validate l (some n)).warnings →
      (Finding.branching ids).message = "Control branches at " ++
        Text.decimal (Set.ncard {x | p.IsBranchPoint l.filled x}) ++ " places") := by
  rw [Net.controlFlow_of_page h, Net.validate_of_page h]
  refine ⟨p.count_branching l.filled, p.branching_enumerates_iff l.filled,
    fun ids => Page.branching_mem_warnings_iff, fun hplain ids hids => ?_⟩
  obtain ⟨rfl, -⟩ := Page.branching_mem_warnings_iff.1 hids
  rw [Finding.message, hplain.length_branching]

/-- A place from which control goes two ways. -/
def Page.fork : Page where
  id := "page1"
  places := [⟨"a", "start", none⟩]
  transitions := [⟨"t", "left", none⟩, ⟨"u", "right", none⟩]
  arcs := [⟨"1", "a", "t", "()"⟩, ⟨"2", "a", "u", "()"⟩]

/-- The net with that page. -/
def Net.fork : Net := { id := "net1", type := coreModelType, page := some Page.fork }

theorem Page.fork_branchesPlainly : Page.fork.BranchesPlainly Labels.default := by
  have hsplits : ∀ x, Page.fork.Splits Labels.default x → x = "a" := by
    intro x hx
    obtain ⟨a, ha, hsource⟩ := List.countP_pos_iff.1 (Nat.lt_of_succ_lt hx.2)
    have hsources : ∀ a ∈ Page.fork.arcs, a.source = "a" := by decide
    exact (of_decide_eq_true hsource).2 ▸ hsources a ha
  have hleads : Page.fork.LeadsApart Labels.default "a" :=
    ⟨"t", "u", by decide, ⟨⟨"1", "a", "t", "()"⟩, by decide⟩, ⟨⟨"2", "a", "u", "()"⟩, by decide⟩⟩
  refine ⟨fun x hx => ?_, fun x hx _ => ?_, fun x hx _ => ?_, fun x hx => ?_⟩
  · obtain rfl := hsplits x hx
    decide +kernel
  · obtain rfl := hsplits x hx
    decide
  · obtain rfl := hsplits x hx
    exact hleads
  · obtain rfl : x = "a" := List.mem_singleton.1 hx.place
    decide

theorem Net.branching_counts_fork :
    Net.fork.page = some Page.fork ∧ Page.fork.BranchesPlainly Labels.default ∧
      (Net.controlFlow Labels.default (some Net.fork)).branching.count ("a" : Text) = 1 ∧
      (Net.controlFlow Labels.default (some Net.fork)).branching.Nodup ∧
      ∀ ids, .branching ids ∈ (Net.validate Labels.default (some Net.fork)).warnings →
        (Finding.branching ids).message = "Control branches at " ++
          Text.decimal (Set.ncard {x | Page.fork.IsBranchPoint Labels.default x}) ++ " places" := by
  obtain ⟨hcount, henumerates, -, hmessage⟩ :=
    Net.branching_counts (n := Net.fork) (p := Page.fork) rfl Labels.default
  refine ⟨rfl, Page.fork_branchesPlainly, ?_, (henumerates.2 Page.fork_branchesPlainly).1,
    hmessage Page.fork_branchesPlainly⟩
  rw [hcount]
  decide +kernel

/-- Two chains that join before the only branch. -/
def Page.joined : Page where
  id := "page1"
  places := [⟨"a", "left", none⟩, ⟨"b", "right", none⟩, ⟨"c", "both", none⟩, ⟨"d", "first", none⟩,
    ⟨"e", "second", none⟩]
  transitions := [⟨"t", "fromLeft", none⟩, ⟨"u", "fromRight", none⟩, ⟨"v", "toFirst", none⟩,
    ⟨"w", "toSecond", none⟩]
  arcs := [⟨"1", "a", "t", "()"⟩, ⟨"2", "t", "c", "()"⟩, ⟨"3", "b", "u", "()"⟩,
    ⟨"4", "u", "c", "()"⟩, ⟨"5", "c", "v", "()"⟩, ⟨"6", "v", "d", "()"⟩, ⟨"7", "c", "w", "()"⟩,
    ⟨"8", "w", "e", "()"⟩]

/-- The net with that page. -/
def Net.joined : Net := { id := "net1", type := coreModelType, page := some Page.joined }

theorem Page.joined_isBranchPoint_iff (x : Text) :
    Page.joined.IsBranchPoint Labels.default x ↔ x = "c" := by
  constructor
  · intro hx
    have hothers : ∀ y ∈ Page.joined.places.map (·.id), y ≠ ("c" : Text) →
        ¬1 < Page.joined.arcs.countP
          fun a => a.inscription = Labels.default.control ∧ a.source = y := by decide
    by_contra hne
    exact hothers x hx.place hne hx.apart.one_lt_countP
  · rintro rfl
    refine ⟨by decide, ⟨⟨"a", "left", none⟩, by decide, by decide, by decide +kernel⟩, ?_⟩
    exact ⟨"v", "w", by decide, ⟨⟨"5", "c", "v", "()"⟩, by decide⟩,
      ⟨⟨"7", "c", "w", "()"⟩, by decide⟩⟩

/-- A valid net with one branch point, at which two chains have joined: the branch is listed, and
counted, twice. -/
theorem Net.branching_joined :
    Net.joined.page = some Page.joined ∧
      (Net.validate Labels.default (some Net.joined)).valid = true ∧
      (∀ x, Page.joined.IsBranchPoint Labels.default x ↔ x = "c") ∧
      (Net.controlFlow Labels.default (some Net.joined)).branching = ["c", "c"] ∧
      ¬((Net.controlFlow Labels.default (some Net.joined)).branching.Nodup ∧
        ∀ x, x ∈ (Net.controlFlow Labels.default (some Net.joined)).branching ↔
          Page.joined.IsBranchPoint Labels.default x) ∧
      (Net.validate Labels.default (some Net.joined)).warnings.map (·.message) =
        ["Control branches at 2 places"] := by
  have hbranching : (Net.controlFlow Labels.default (some Net.joined)).branching = ["c", "c"] := by
    decide +kernel
  refine ⟨rfl, by decide +kernel, Page.joined_isBranchPoint_iff, hbranching, fun h => ?_,
    by decide +kernel⟩
  rw [hbranching] at h
  exact absurd h.1 (by decide)

end ContractNet
