import ContractNet.Syntax.Tree
import Mathlib.Data.List.Sort

/-!
# Walks through parse trees

A position in a tree is the list of the numbers of the children that lead to it.  Positions are
ordered as the source is: a node stands before what is below it, and children stand in their order.

* `Tree.Reaches`: a node is reached if all nodes above it may be entered;
* `InOrder P ts`: the nodes `ts` are those at the positions that `P` tells, in the order of the
  source, which leaves no choice (`InOrder.unique`);
* `IsWalk.inOrder`: a recursive walk lists the nodes that it reaches in the order of the source.
-/

namespace ContractNet.Syntax

namespace Tree

/-- The node `x` at the position `pos` of a tree is reached: all nodes above it may be entered. -/
inductive Reaches (enter : Tree → Bool) : Tree → List Nat → Tree → Prop
  | here (t : Tree) : Reaches enter t [] t
  | down {t k x : Tree} {i : Nat} {pos : List Nat} (ht : enter t = true) (hk : t.kids[i]? = some k)
      (h : Reaches enter k pos x) : Reaches enter t (i :: pos) x

theorem sizeOf_lt_of_mem_kids {t k : Tree} (h : k ∈ t.kids) : sizeOf k < sizeOf t := by
  cases t with
  | rule name source start stop kids =>
    have hlt : sizeOf k < sizeOf kids := List.sizeOf_lt_of_mem h
    simp only [rule.sizeOf_spec]
    omega
  | token => cases h

/-- What holds of a node whenever it holds of its children holds of all nodes. -/
@[elab_as_elim]
theorem kids_induction {motive : Tree → Prop} (h : ∀ t, (∀ k ∈ t.kids, motive k) → motive t)
    (t : Tree) : motive t :=
  h t fun k hk =>
    have : sizeOf k < sizeOf t := sizeOf_lt_of_mem_kids hk
    kids_induction h k
termination_by sizeOf t

end Tree

/-- The nodes `ts` are those at the positions that `P` tells, in the order of the source. -/
def InOrder (P : List Nat → Tree → Prop) (ts : List Tree) : Prop :=
  ∃ found : List (List Nat × Tree), found.map Prod.snd = ts ∧
    (found.map Prod.fst).Pairwise (· < ·) ∧ ∀ pos x, (pos, x) ∈ found ↔ P pos x

namespace InOrder

variable {P Q : List Nat → Tree → Prop} {ts us : List Tree}

theorem congr (h : InOrder P ts) (hPQ : ∀ pos x, P pos x ↔ Q pos x) : InOrder Q ts := by
  obtain ⟨found, hts, hsorted, hmem⟩ := h
  exact ⟨found, hts, hsorted, fun pos x => (hmem pos x).trans (hPQ pos x)⟩

theorem nil (h : ∀ pos x, ¬P pos x) : InOrder P [] :=
  ⟨[], rfl, .nil, fun pos x => by simp [h pos x]⟩

theorem singleton (t : Tree) : InOrder (fun pos x => pos = [] ∧ x = t) [t] :=
  ⟨[([], t)], rfl, by simp, fun pos x => by simp⟩

theorem append (h : InOrder P ts) (h' : InOrder Q us)
    (hlt : ∀ pos x pos' x', P pos x → Q pos' x' → pos < pos') :
    InOrder (fun pos x => P pos x ∨ Q pos x) (ts ++ us) := by
  obtain ⟨found, rfl, hsorted, hmem⟩ := h
  obtain ⟨found', rfl, hsorted', hmem'⟩ := h'
  refine ⟨found ++ found', List.map_append, ?_, fun pos x => ?_⟩
  · rw [List.map_append, List.pairwise_append]
    refine ⟨hsorted, hsorted', fun pos hpos pos' hpos' => ?_⟩
    obtain ⟨⟨_, x⟩, hx, rfl⟩ := List.mem_map.1 hpos
    obtain ⟨⟨_, x'⟩, hx', rfl⟩ := List.mem_map.1 hpos'
    exact hlt _ _ _ _ ((hmem _ _).1 hx) ((hmem' _ _).1 hx')
  · rw [List.mem_append, hmem, hmem']

/-- The nodes of the child with number `i`. -/
theorem under (h : InOrder P ts) (i : Nat) :
    InOrder (fun pos x => ∃ pos', pos = i :: pos' ∧ P pos' x) ts := by
  obtain ⟨found, rfl, hsorted, hmem⟩ := h
  refine ⟨found.map fun e => (i :: e.1, e.2), by simp [Function.comp_def], ?_, fun pos x => ?_⟩
  · rw [List.map_map, List.pairwise_map]
    refine (List.pairwise_map.1 hsorted).imp fun hlt => ?_
    exact List.cons_lt_cons_iff.2 (.inr ⟨rfl, hlt⟩)
  · simp only [List.mem_map, Prod.mk.injEq, Prod.exists]
    constructor
    · rintro ⟨pos', _, hx, rfl, rfl⟩
      exact ⟨pos', rfl, (hmem _ _).1 hx⟩
    · rintro ⟨pos', rfl, hx⟩
      exact ⟨pos', x, (hmem _ _).2 hx, rfl, rfl⟩

theorem filter (h : InOrder P ts) (q : Tree → Bool) :
    InOrder (fun pos x => P pos x ∧ q x = true) (ts.filter q) := by
  obtain ⟨found, rfl, hsorted, hmem⟩ := h
  refine ⟨found.filter fun e => q e.2, ?_, ?_, fun pos x => ?_⟩
  · rw [List.filter_map]
    rfl
  · exact hsorted.sublist (List.filter_sublist.map _)
  · rw [List.mem_filter, hmem]

theorem mem_iff (h : InOrder P ts) {x : Tree} : x ∈ ts ↔ ∃ pos, P pos x := by
  obtain ⟨found, rfl, -, hmem⟩ := h
  simp only [List.mem_map, Prod.exists, exists_eq_right, hmem]

/-- The order of the source leaves no choice. -/
theorem unique (h : InOrder P ts) (h' : InOrder P us) : ts = us := by
  obtain ⟨found, rfl, hsorted, hmem⟩ := h
  obtain ⟨found', rfl, hsorted', hmem'⟩ := h'
  let before (e e' : List Nat × Tree) : Prop := e.1 < e'.1
  have hirrefl : Std.Irrefl before := ⟨fun e => List.lt_irrefl e.1⟩
  have hantisymm : Std.Antisymm before :=
    ⟨fun e e' hlt hlt' => absurd (List.lt_trans hlt hlt') (List.lt_irrefl e.1)⟩
  have hsame : ∀ e, e ∈ found ↔ e ∈ found' := fun e => (hmem e.1 e.2).trans (hmem' e.1 e.2).symm
  rw [List.Pairwise.eq_of_mem_iff (r := before) (List.pairwise_map.1 hsorted)
    (List.pairwise_map.1 hsorted') hsame]

/-- There is one node in the list if and only if there is one position. -/
theorem exists_eq_singleton_iff (h : InOrder P ts) {Q : Tree → Prop} :
    (∃ t, ts = [t] ∧ Q t) ↔
      ∃ pos t, P pos t ∧ (∀ pos' t', P pos' t' → pos' = pos) ∧ Q t := by
  obtain ⟨found, rfl, hsorted, hmem⟩ := h
  simp only [← hmem]
  constructor
  · rintro ⟨t, ht, hQ⟩
    obtain ⟨⟨pos, t'⟩, rfl, rfl⟩ := List.map_eq_singleton_iff.1 ht
    exact ⟨pos, t', List.mem_singleton_self _, fun pos' x h' =>
      congrArg Prod.fst (List.mem_singleton.1 h'), hQ⟩
  · rintro ⟨pos, t, ht, hunique, hQ⟩
    refine ⟨t, ?_, hQ⟩
    -- a second entry would have a greater position
    match found, hsorted with
    | [e], _ =>
      obtain rfl := List.mem_singleton.1 ht
      rfl
    | e :: e' :: found, hsorted =>
      have hlt : e.1 < e'.1 := List.rel_of_pairwise_cons hsorted List.mem_cons_self
      rw [hunique e.1 e.2 List.mem_cons_self,
        hunique e'.1 e'.2 (List.mem_cons_of_mem _ List.mem_cons_self)] at hlt
      exact absurd hlt (List.lt_irrefl pos)

/-- The nodes of several children, which are numbered from `i` on. -/
theorem flatMap {P : Tree → List Nat → Tree → Prop} {walk : Tree → List Tree} {ks : List Tree}
    (h : ∀ k ∈ ks, InOrder (P k) (walk k)) (i : Nat) :
    InOrder (fun pos x => ∃ j k pos', ks[j]? = some k ∧ pos = (i + j) :: pos' ∧ P k pos' x)
      (ks.flatMap walk) := by
  induction ks generalizing i with
  | nil => exact nil fun pos x => by simp
  | cons k ks ih =>
    obtain ⟨hk, hks⟩ := List.forall_mem_cons.1 h
    rw [List.flatMap_cons]
    refine ((hk.under i).append (ih hks (i + 1)) ?_).congr fun pos x => ?_
    · rintro _ x _ x' ⟨pos, rfl, -⟩ ⟨j, k', pos', -, rfl, -⟩
      exact List.cons_lt_cons_iff.2 (.inl (by omega))
    · constructor
      · rintro (⟨pos', rfl, hx⟩ | ⟨j, k', pos', hk', rfl, hx⟩)
        · exact ⟨0, k, pos', rfl, rfl, hx⟩
        · exact ⟨j + 1, k', pos', hk', by rw [Nat.add_right_comm, Nat.add_assoc], hx⟩
      · rintro ⟨_ | j, k', pos', hk', rfl, hx⟩
        · obtain rfl : k = k' := by simpa using hk'
          exact .inl ⟨pos', rfl, hx⟩
        · exact .inr ⟨j, k', pos', by simpa using hk', by rw [Nat.add_right_comm, Nat.add_assoc],
            hx⟩

end InOrder

/-- The function `walk` lists a node if it is to be kept, and then goes through the children of a
node that may be entered. -/
def IsWalk (enter keep : Tree → Bool) (walk : Tree → List Tree) : Prop :=
  ∀ t, walk t = (if keep t then [t] else []) ++ if enter t then t.kids.flatMap walk else []

/-- Going through several nodes by a recursion of its own comes to the same. -/
theorem eq_flatMap {walk : Tree → List Tree} {walkAll : List Tree → List Tree}
    (hnil : walkAll [] = []) (hcons : ∀ t ts, walkAll (t :: ts) = walk t ++ walkAll ts)
    (ts : List Tree) : walkAll ts = ts.flatMap walk := by
  induction ts with
  | nil => exact hnil
  | cons t ts ih => rw [hcons, ih, List.flatMap_cons]

/-- **A walk lists the nodes that it reaches** and keeps, in the order of the source. -/
theorem IsWalk.inOrder {enter keep : Tree → Bool} {walk : Tree → List Tree}
    (h : IsWalk enter keep walk) (t : Tree) :
    InOrder (fun pos x => t.Reaches enter pos x ∧ keep x = true) (walk t) := by
  induction t using Tree.kids_induction with
  | h t ih =>
    have hhere : InOrder (fun pos x => (pos = [] ∧ x = t) ∧ keep x = true)
        (if keep t then [t] else []) := by
      have hfilter := (InOrder.singleton t).filter keep
      rwa [List.filter_cons, List.filter_nil] at hfilter
    have hbelow : InOrder (fun pos x => enter t = true ∧ ∃ i k pos', t.kids[i]? = some k ∧
        pos = i :: pos' ∧ k.Reaches enter pos' x ∧ keep x = true)
        (if enter t then t.kids.flatMap walk else []) := by
      split
      · rename_i ht
        refine (InOrder.flatMap ih 0).congr fun pos x => ?_
        simp only [Nat.zero_add, ht, true_and]
      · rename_i ht
        exact InOrder.nil fun pos x hx => ht hx.1
    -- the position of the node itself is empty, so it comes before all that are below
    rw [h t]
    refine (hhere.append hbelow ?_).congr fun pos x => ?_
    · rintro _ x _ x' ⟨⟨rfl, -⟩, -⟩ ⟨-, i, k, pos', -, rfl, -⟩
      exact List.nil_lt_cons i pos'
    · constructor
      · rintro (⟨⟨rfl, rfl⟩, hx⟩ | ⟨ht, i, k, pos', hk, rfl, hr, hx⟩)
        · exact ⟨.here x, hx⟩
        · exact ⟨.down ht hk hr, hx⟩
      · rintro ⟨hr, hx⟩
        cases hr with
        | here => exact .inl ⟨⟨rfl, rfl⟩, hx⟩
        | down ht hk hr => exact .inr ⟨ht, _, _, _, hk, rfl, hr, hx⟩

end ContractNet.Syntax
