import ContractNet.Net.ControlFlow
import ContractNet.Proofs.Lists
import Mathlib.Data.List.Pairwise
import Mathlib.Data.List.Perm.Subperm
import Mathlib.Logic.Function.Iterate
import Mathlib.Logic.Relation
import Mathlib.Order.Lattice.Nat

/-!
# Breadth-first search

`explore` expands one waiting node after the other.  Its loop is the iteration of `Search.step`, and
all that is known about the nodes it finds follows from invariants of one step.  A search may go on
from nodes that were done before (`Search.Continues`); one that starts afresh also finds the nodes
in the order of their distances (`Search.Sound`).

* `Walk R x n y`: `n` steps of `R` lead from `x` to `y`; `distance R x y` is the least such number;
* `Search.Continues.step`, `Search.Sound.step`: one step of a search keeps the invariants;
* `Search.Sound.waiting_iterate`: a search in finitely many nodes comes to its end;
* `Search.done_iterate`: the bounded search finds what the steps find;
* `Search.Continues.mem_done_iff`: at its end, a search has found what can be reached.
-/

namespace ContractNet

open Relation

/-! ### Walks and distances -/

section Walk

variable {α : Type} (R : α → α → Prop)

/-- There is a way of `n` steps from `x` to a node. -/
inductive Walk (x : α) : Nat → α → Prop
  | refl : Walk x 0 x
  | tail {n : Nat} {y z : α} (hwalk : Walk x n y) (hstep : R y z) : Walk x (n + 1) z

/-- The number of steps on the shortest way from `x` to `y`. -/
noncomputable def distance (x y : α) : Nat := sInf {n | Walk R x n y}

variable {R} {x y z : α}

theorem reflTransGen_iff_exists_walk : ReflTransGen R x y ↔ ∃ n, Walk R x n y := by
  constructor
  · intro h
    induction h with
    | refl => exact ⟨0, .refl⟩
    | tail _ hstep ih =>
      obtain ⟨n, hwalk⟩ := ih
      exact ⟨n + 1, hwalk.tail hstep⟩
  · rintro ⟨n, hwalk⟩
    induction hwalk with
    | refl => exact .refl
    | tail _ hstep ih => exact ih.tail hstep

theorem Walk.distance_le {n : Nat} (h : Walk R x n y) : distance R x y ≤ n := Nat.sInf_le h

theorem walk_distance (h : ReflTransGen R x y) : Walk R x (distance R x y) y :=
  Nat.sInf_mem (reflTransGen_iff_exists_walk.1 h)

theorem distance_le_succ (h : ReflTransGen R x y) (hstep : R y z) :
    distance R x z ≤ distance R x y + 1 := ((walk_distance h).tail hstep).distance_le

/-- The last step of a shortest way starts nearer by. -/
theorem exists_distance_lt (h : ReflTransGen R x z) (hne : z ≠ x) :
    ∃ y, ReflTransGen R x y ∧ R y z ∧ distance R x y < distance R x z := by
  have hwalk := walk_distance h
  generalize hd : distance R x z = d at hwalk ⊢
  cases hwalk with
  | refl => exact absurd rfl hne
  | @tail n y _ hwalk hstep =>
    have hle := hwalk.distance_le
    exact ⟨y, reflTransGen_iff_exists_walk.2 ⟨n, hwalk⟩, hstep, by omega⟩

end Walk

/-! ### One step of a search -/

/-- The node `z` is one of the successors of `y`. -/
def Edge (next : Text → List Text) (y z : Text) : Prop := z ∈ next y

/-- The successors of a node that were not seen, each once. -/
def fresh (next : Text → List Text) (seen : List Text) (node : Text) : List Text :=
  (next node).eraseDups.filter fun n => !seen.contains n

section Fresh

variable {next : Text → List Text} {seen : List Text} {node y : Text}

theorem mem_fresh : y ∈ fresh next seen node ↔ y ∈ next node ∧ y ∉ seen := by
  simp [fresh, List.mem_eraseDups]

theorem nodup_fresh : (fresh next seen node).Nodup := (nodup_eraseDups _).filter _

end Fresh

/-- The state of a search: the nodes that were expanded, in their order, and those that wait. -/
structure Search where
  done : List Text
  waiting : List Text

namespace Search

/-- The state before the first step from a node. -/
def start (x : Text) : Search := ⟨[], [x]⟩

/-- All nodes that were found so far. -/
def seen (s : Search) : List Text := s.done ++ s.waiting

/-- Expand the first of the nodes that wait. -/
def step (next : Text → List Text) (s : Search) : Search :=
  match s.waiting with
  | [] => s
  | node :: waiting => ⟨s.done ++ [node], waiting ++ fresh next s.seen node⟩

variable {next : Text → List Text} {s : Search} {x node : Text} {waiting : List Text}

theorem step_of_nil (h : s.waiting = []) : s.step next = s := by
  simp only [step, h]

theorem step_of_cons (h : s.waiting = node :: waiting) :
    s.step next = ⟨s.done ++ [node], waiting ++ fresh next s.seen node⟩ := by
  simp only [step, h]

theorem seen_step (h : s.waiting = node :: waiting) :
    (s.step next).seen = s.seen ++ fresh next s.seen node := by
  simp [step_of_cons h, seen, h]

theorem iterate_of_nil (h : s.waiting = []) (k : Nat) : (step next)^[k] s = s :=
  Function.iterate_fixed (step_of_nil h) k

/-- **The bounded search finds what the steps find.** -/
theorem done_iterate (next : Text → List Text) (k : Nat) (s : Search) :
    ((step next)^[k] s).done = s.done ++ explore next k s.seen s.waiting := by
  induction k generalizing s with
  | zero => simp [explore]
  | succ k ih =>
    cases h : s.waiting with
    | nil => simp [iterate_of_nil h, explore]
    | cons node waiting =>
      rw [Function.iterate_succ_apply, ih, seen_step h, step_of_cons h, List.append_assoc]
      rfl

/-! ### Finding what can be reached -/

/-- What is known in every state of a search from `x`, if the nodes `base` were done before. -/
structure Continues (next : Text → List Text) (base : List Text) (x : Text) (s : Search) :
    Prop where
  nodup : s.seen.Nodup
  base_done : base ⊆ s.done
  start_mem : x ∈ s.seen
  reached : ∀ y ∈ s.seen, y ∈ base ∨ ReflTransGen (Edge next) x y
  closed : ∀ y ∈ s.done, ∀ z ∈ next y, z ∈ s.seen

namespace Continues

variable {base : List Text}

/-- Nodes that wait were not done before, so they were reached. -/
theorem reached_of_mem_waiting (h : s.Continues next base x) {y : Text} (hy : y ∈ s.waiting) :
    ReflTransGen (Edge next) x y := by
  refine (h.reached y (List.mem_append_right _ hy)).resolve_left fun hbase => ?_
  exact (List.nodup_append.1 h.nodup).2.2 y (h.base_done hbase) y hy rfl

theorem step (h : s.Continues next base x) : (s.step next).Continues next base x := by
  cases hw : s.waiting with
  | nil => rwa [step_of_nil hw]
  | cons node waiting =>
    have hnode := h.reached_of_mem_waiting (hw ▸ List.mem_cons_self)
    refine ⟨?_, ?_, ?_, ?_, ?_⟩
    · rw [seen_step hw]
      refine List.nodup_append.2 ⟨h.nodup, nodup_fresh, fun y hy z hz he => ?_⟩
      exact (mem_fresh.1 hz).2 (he ▸ hy)
    · rw [step_of_cons hw]
      exact List.subset_append_of_subset_left _ h.base_done
    · rw [seen_step hw]
      exact List.mem_append_left _ h.start_mem
    · rw [seen_step hw]
      intro y hy
      rcases List.mem_append.1 hy with hy | hy
      · exact h.reached y hy
      · exact .inr (hnode.tail (mem_fresh.1 hy).1)
    · rw [seen_step hw, step_of_cons hw]
      intro y hy z hz
      rcases List.mem_append.1 hy with hy | hy
      · exact List.mem_append_left _ (h.closed y hy z hz)
      · obtain rfl := List.mem_singleton.1 hy
        by_cases hseen : z ∈ s.seen
        · exact List.mem_append_left _ hseen
        · exact List.mem_append_right _ (mem_fresh.2 ⟨hz, hseen⟩)

/-- **At its end,** a search has found what can be reached. -/
theorem mem_done_iff (h : s.Continues next base x) (hw : s.waiting = []) {y : Text} :
    y ∈ s.done ↔ y ∈ base ∨ ReflTransGen (Edge next) x y := by
  have hseen : s.seen = s.done := by rw [seen, hw, List.append_nil]
  constructor
  · intro hy
    exact h.reached y (hseen ▸ hy)
  · rintro (hy | hy)
    · exact h.base_done hy
    · induction hy with
      | refl => exact hseen ▸ h.start_mem
      | tail _ hstep ih => exact hseen ▸ h.closed _ ih _ hstep

end Continues

/-! ### The order of distances -/

/-- What is known in every state of a search from `x`.  The nodes are found in the order of their
distances, and those that wait are at most one step further than the first of them. -/
structure Sound (next : Text → List Text) (x : Text) (s : Search) : Prop where
  nodup : s.seen.Nodup
  start_mem : x ∈ s.seen
  reached : ∀ y ∈ s.seen, ReflTransGen (Edge next) x y
  closed : ∀ y ∈ s.done, ∀ z ∈ next y, z ∈ s.seen
  sorted : s.seen.Pairwise fun y z => distance (Edge next) x y ≤ distance (Edge next) x z
  near : ∀ node ∈ s.waiting.head?, ∀ y ∈ s.seen,
    distance (Edge next) x y ≤ distance (Edge next) x node + 1

theorem sound_start (next : Text → List Text) (x : Text) : (start x).Sound next x where
  nodup := List.nodup_singleton x
  start_mem := List.mem_singleton_self x
  reached := by
    intro y hy
    obtain rfl := List.mem_singleton.1 hy
    exact .refl
  closed := by
    intro y hy
    cases hy
  sorted := List.pairwise_singleton _ x
  near := by
    intro node hnode y hy
    obtain rfl := Option.some.inj hnode
    obtain rfl := List.mem_singleton.1 hy
    omega

namespace Sound

/-- A search in the order of distances is one for which nothing was done before. -/
theorem continues (h : s.Sound next x) : s.Continues next [] x where
  nodup := h.nodup
  base_done := List.nil_subset _
  start_mem := h.start_mem
  reached y hy := .inr (h.reached y hy)
  closed := h.closed

/-- Nodes that wait are at least as far as the first of them. -/
theorem distance_le_of_mem_waiting (h : s.Sound next x) (hw : s.waiting = node :: waiting)
    {y : Text} (hy : y ∈ s.waiting) :
    distance (Edge next) x node ≤ distance (Edge next) x y := by
  have hsorted := (List.pairwise_append.1 h.sorted).2.1
  rw [hw] at hsorted hy
  rcases List.mem_cons.1 hy with rfl | hy
  · exact Nat.le_refl _
  · exact (List.pairwise_cons.1 hsorted).1 y hy

/-- Nodes no further than the first one that waits were seen before it is expanded. -/
theorem mem_seen_of_distance_le (h : s.Sound next x) (hw : s.waiting = node :: waiting) {y : Text}
    (hy : ReflTransGen (Edge next) x y)
    (hle : distance (Edge next) x y ≤ distance (Edge next) x node) :
    y ∈ s.seen := by
  -- along a shortest way, each node before `y` is nearer than all that wait, so it was expanded
  induction hd : distance (Edge next) x y using Nat.strong_induction_on generalizing y with
  | _ d ih =>
    by_cases hyx : y = x
    · exact hyx ▸ h.start_mem
    · obtain ⟨z, hz, hstep, hlt⟩ := exists_distance_lt hy hyx
      have hzseen : z ∈ s.seen := ih _ (hd ▸ hlt) hz (by omega) rfl
      have hzdone : z ∈ s.done := by
        refine (List.mem_append.1 hzseen).resolve_right fun hmem => ?_
        have := h.distance_le_of_mem_waiting hw hmem
        omega
      exact h.closed z hzdone y hstep

/-- What a step finds is one step further than the node that it expands. -/
theorem distance_of_mem_fresh (h : s.Sound next x) (hw : s.waiting = node :: waiting) {y : Text}
    (hy : y ∈ fresh next s.seen node) :
    distance (Edge next) x y = distance (Edge next) x node + 1 := by
  obtain ⟨hnext, hseen⟩ := mem_fresh.1 hy
  have hnode : ReflTransGen (Edge next) x node :=
    h.reached node (List.mem_append_right _ (hw ▸ List.mem_cons_self))
  refine Nat.le_antisymm (distance_le_succ hnode hnext) (Nat.lt_of_not_le fun hle => ?_)
  exact hseen (h.mem_seen_of_distance_le hw (hnode.tail hnext) hle)

/-- **One step of a search** keeps the invariant. -/
theorem step (h : s.Sound next x) : (s.step next).Sound next x := by
  cases hw : s.waiting with
  | nil => rwa [step_of_nil hw]
  | cons node waiting =>
    have hnear := h.near node (by rw [hw]; rfl)
    have hfar := fun y (hy : y ∈ fresh next s.seen node) => h.distance_of_mem_fresh hw hy
    have hstep := h.continues.step
    refine ⟨hstep.nodup, hstep.start_mem, ?_, hstep.closed, ?_, ?_⟩
    · intro y hy
      exact (hstep.reached y hy).resolve_left List.not_mem_nil
    · rw [seen_step hw, List.pairwise_append]
      refine ⟨h.sorted, List.pairwise_of_forall_mem_list fun y hy z hz => ?_, fun y hy z hz => ?_⟩
      · rw [hfar y hy, hfar z hz]
      · rw [hfar z hz]
        exact hnear y hy
    · -- the first node that waits now is no nearer than the one that was expanded
      rw [seen_step hw, step_of_cons hw]
      intro first hfirst y hy
      have hge : distance (Edge next) x node ≤ distance (Edge next) x first := by
        rcases List.mem_append.1 (List.mem_of_mem_head? hfirst) with hmem | hmem
        · exact h.distance_le_of_mem_waiting hw (hw ▸ List.mem_cons_of_mem _ hmem)
        · have := hfar first hmem
          omega
      have hle : distance (Edge next) x y ≤ distance (Edge next) x node + 1 := by
        rcases List.mem_append.1 hy with hy | hy
        · exact hnear y hy
        · exact Nat.le_of_eq (hfar y hy)
      omega

theorem iterate (h : s.Sound next x) (k : Nat) : ((Search.step next)^[k] s).Sound next x := by
  induction k generalizing s with
  | zero => exact h
  | succ k ih => exact ih h.step

/-! ### The end of a search -/

/-- **A search comes to its end:** if `nodes` holds all that can be reached, it takes one step for
each of them at most. -/
theorem waiting_iterate (h : s.Sound next x) (nodes : List Text)
    (hnodes : ∀ y, ReflTransGen (Edge next) x y → y ∈ nodes) {k : Nat}
    (hk : nodes.length ≤ s.done.length + k) : ((Search.step next)^[k] s).waiting = [] := by
  induction k generalizing s with
  | zero =>
    have hlength := (h.nodup.subperm fun y hy => hnodes y (h.reached y hy)).length_le
    rw [seen, List.length_append] at hlength
    have hnone : s.waiting.length = 0 := by omega
    exact List.eq_nil_of_length_eq_zero hnone
  | succ k ih =>
    cases hw : s.waiting with
    | nil => rw [iterate_of_nil hw, hw]
    | cons node waiting =>
      refine ih h.step ?_
      rw [step_of_cons hw, List.length_append, List.length_singleton]
      omega

theorem mem_done_iff (h : s.Sound next x) (hw : s.waiting = []) {y : Text} :
    y ∈ s.done ↔ ReflTransGen (Edge next) x y := by
  rw [h.continues.mem_done_iff hw]
  exact or_iff_right List.not_mem_nil

end Sound

end Search

end ContractNet
