import ContractNet.Proofs.Syntax.Walk

/-!
# Replacing a node of a parse tree

* `Tree.replaceAt` replaces the node at a position;
* `Tree.SameShell` says that two nodes have the same rule and the same lines; a node keeps its
  shell when one below it is replaced by one with the same shell (`Tree.Reaches.sameShell`);
* `IsWalk.exists_replaceAt`: when a node that a walk reaches is replaced, the walk lists what it
  lists below the new node, between what it lists before and after it.
-/

namespace ContractNet.Syntax

namespace Tree

/-- The node with other children. -/
def withKids : Tree → List Tree → Tree
  | rule n source start stop _, ks => rule n source start stop ks
  | token t start stop, _ => token t start stop

/-- The tree with `x` in place of the node at the position `pos`.  Nothing changes if there is no
such node. -/
def replaceAt : Tree → List Nat → Tree → Tree
  | _, [], x => x
  | t, i :: pos, x => t.withKids (t.kids.modify i fun k => replaceAt k pos x)

variable {enter : Tree → Bool} {t k x : Tree} {i : Nat} {pos : List Nat}

@[simp] theorem name_withKids (t : Tree) (ks : List Tree) : (t.withKids ks).name = t.name := by
  cases t <;> rfl

theorem withKids_kids (t : Tree) : t.withKids t.kids = t := by
  cases t <;> rfl

/-- The children of a node with a child are those that it is given. -/
theorem kids_withKids (hk : k ∈ t.kids) (ks : List Tree) : (t.withKids ks).kids = ks := by
  cases t with
  | rule => rfl
  | token => cases hk

theorem exists_modify_eq {α : Type} {l : List α} {a : α} (h : l[i]? = some a) :
    ∃ before after, before.length = i ∧ l = before ++ a :: after ∧
      ∀ f : α → α, l.modify i f = before ++ f a :: after := by
  obtain ⟨hi, rfl⟩ := List.getElem?_eq_some_iff.1 h
  refine ⟨l.take i, l.drop (i + 1), by simp; omega, ?_, fun f => ?_⟩
  · rw [← List.drop_eq_getElem_cons hi, List.take_append_drop]
  · rw [List.modify_eq_take_cons_drop hi]

/-- Replacing below a child changes this child only. -/
theorem exists_replaceAt_cons (hk : t.kids[i]? = some k) :
    ∃ before after, before.length = i ∧ t.kids = before ++ k :: after ∧
      ∀ pos x, t.replaceAt (i :: pos) x = t.withKids (before ++ k.replaceAt pos x :: after) := by
  obtain ⟨before, after, hlength, hkids, hmodify⟩ := exists_modify_eq hk
  exact ⟨before, after, hlength, hkids, fun pos x => by rw [replaceAt, hmodify]⟩

theorem Reaches.replaceAt_self (h : t.Reaches enter pos x) : t.replaceAt pos x = t := by
  induction h with
  | here t => rfl
  | down _ hk _ ih =>
    obtain ⟨before, after, -, hkids, hreplace⟩ := exists_replaceAt_cons hk
    rw [hreplace, ih, ← hkids, withKids_kids]

/-- What is replaced below a node is replaced in this node. -/
theorem Reaches.replaceAt_append (h : t.Reaches enter pos k) (pos' : List Nat) (x : Tree) :
    t.replaceAt (pos ++ pos') x = t.replaceAt pos (k.replaceAt pos' x) := by
  induction h with
  | here t => rfl
  | down _ hk _ ih =>
    obtain ⟨before, after, -, -, hreplace⟩ := exists_replaceAt_cons hk
    rw [List.cons_append, hreplace, hreplace, ih]

/-! ### Rule and lines -/

theorem startLineOfFirst_eq (ts : List Tree) : startLineOfFirst ts = ts.head?.map startLine := by
  cases ts <;> rfl

theorem endLineOfLast_eq (ts : List Tree) : endLineOfLast ts = ts.getLast?.map endLine := by
  induction ts with
  | nil => rfl
  | cons t ts ih =>
    rw [endLineOfLast, ih, List.getLast?_cons]
    cases ts.getLast? <;> rfl

/-- The nodes have the same rule and the same lines. -/
structure SameShell (t t' : Tree) : Prop where
  name : t'.name = t.name
  startLine : t'.startLine = t.startLine
  endLine : t'.endLine = t.endLine

namespace SameShell

theorem refl (t : Tree) : t.SameShell t := ⟨rfl, rfl, rfl⟩

variable {t t' k k' : Tree}

theorem isToken (h : t.SameShell t') : t'.isToken = t.isToken := by
  rw [Tree.isToken, Tree.isToken, h.name]

theorem location (h : t.SameShell t') : t'.location = t.location := by
  rw [Tree.location, Tree.location, h.startLine, h.endLine]

/-- The lines of a rule come from its first and its last child, if from any. -/
theorem of_kids {name source : Text} {start stop : Int} {ks ks' : List Tree}
    (hhead : ks'.head?.map Tree.startLine = ks.head?.map Tree.startLine)
    (hlast : ks'.getLast?.map Tree.endLine = ks.getLast?.map Tree.endLine) :
    (rule name source start stop ks).SameShell (rule name source start stop ks') := by
  have hstart : (rule name source start stop ks').startLine =
      (rule name source start stop ks).startLine := by
    simp only [Tree.startLine, startLineOfFirst_eq, hhead]
  refine ⟨rfl, hstart, ?_⟩
  simp only [Tree.endLine, endLineOfLast_eq, hlast, hstart]

/-- A node keeps its shell if one of its children is replaced by one with the same shell. -/
theorem under (h : k.SameShell k') (name source : Text) (start stop : Int)
    (before after : List Tree) :
    (rule name source start stop (before ++ k :: after)).SameShell
      (rule name source start stop (before ++ k' :: after)) := by
  refine of_kids ?_ ?_
  · cases before with
    | nil => exact congrArg some h.startLine
    | cons => rfl
  · rw [List.getLast?_append_cons, List.getLast?_append_cons, List.getLast?_cons,
      List.getLast?_cons]
    cases after.getLast? with
    | none => exact congrArg some h.endLine
    | some => rfl

end SameShell

/-- A tree keeps its shell if a node below is replaced by one with the same shell. -/
theorem Reaches.sameShell (h : t.Reaches enter pos k) (hx : k.SameShell x) :
    t.SameShell (t.replaceAt pos x) := by
  induction h with
  | here t => exact hx
  | @down t k _ i pos _ hk _ ih =>
    obtain ⟨before, after, -, hkids, hreplace⟩ := exists_replaceAt_cons hk
    rw [hreplace]
    cases t with
    | rule name source start stop ks =>
      obtain rfl : ks = before ++ k :: after := hkids
      exact (ih hx).under name source start stop before after
    | token => cases hk

theorem name_replaceAt_cons (t : Tree) (i : Nat) (pos : List Nat) (x : Tree) :
    (t.replaceAt (i :: pos) x).name = t.name := name_withKids ..

/-! ### The first child with a rule -/

section Child

variable {rule : Text}

theorem child?_replaceAt_of_ne (hk : t.kids[i]? = some k) (hrule : k.name ≠ rule)
    (hname : (k.replaceAt pos x).name = k.name) :
    (t.replaceAt (i :: pos) x).child? rule = t.child? rule := by
  obtain ⟨before, after, -, hkids, hreplace⟩ := exists_replaceAt_cons hk
  rw [hreplace, child?, kids_withKids (List.mem_of_getElem? hk), child?, hkids, List.find?_append,
    List.find?_append, List.find?_cons_of_neg (by simpa [hname] using hrule),
    List.find?_cons_of_neg (by simpa using hrule)]

theorem child?_replaceAt_of_first (hk : t.kids[i]? = some k)
    (hfirst : t.kids.findIdx? (·.name = rule) = some i)
    (hname : (k.replaceAt pos x).name = k.name) :
    (t.replaceAt (i :: pos) x).child? rule = some (k.replaceAt pos x) := by
  obtain ⟨before, after, rfl, hkids, hreplace⟩ := exists_replaceAt_cons hk
  obtain ⟨_, hrule, hbefore⟩ := List.findIdx?_eq_some_iff_getElem.1 hfirst
  have hnone : before.find? (·.name = rule) = none := by
    refine List.find?_eq_none.2 fun a ha => ?_
    obtain ⟨j, hj, rfl⟩ := List.getElem_of_mem ha
    simpa [hkids, List.getElem_append_left hj] using hbefore j hj
  have hk' : (k.replaceAt pos x).name = rule := by simpa [hkids, hname] using hrule
  rw [hreplace, child?, kids_withKids (List.mem_of_getElem? hk), List.find?_append, hnone,
    Option.none_or, List.find?_cons_of_pos (by simpa using hk')]

end Child

end Tree

/-! ### Walks -/

/-- **A walk lists the nodes below a replaced node as if it started there.**  It depends on rules
only where it goes, and lists no node that it goes through. -/
theorem IsWalk.exists_replaceAt {enter keep : Tree → Bool} {walk : Tree → List Tree}
    (hwalk : IsWalk enter keep walk) (hname : ∀ t t' : Tree, t'.name = t.name → enter t' = enter t)
    (hkeep : ∀ t, enter t = true → keep t = false) {t k : Tree} {pos : List Nat}
    (h : t.Reaches enter pos k) :
    ∃ before after, walk t = before ++ walk k ++ after ∧
      ∀ x, walk (t.replaceAt pos x) = before ++ walk x ++ after := by
  suffices hx : ∃ before after, ∀ x, walk (t.replaceAt pos x) = before ++ walk x ++ after by
    obtain ⟨before, after, hx⟩ := hx
    exact ⟨before, after, by rw [← hx, h.replaceAt_self], hx⟩
  induction h with
  | here t => exact ⟨[], [], fun x => by simp [Tree.replaceAt]⟩
  | @down t k _ i pos ht hk _ ih =>
    obtain ⟨before, after, -, hkids, hreplace⟩ := Tree.exists_replaceAt_cons hk
    obtain ⟨before', after', ih⟩ := ih
    refine ⟨before.flatMap walk ++ before', after' ++ after.flatMap walk, fun x => ?_⟩
    have henter : enter (t.replaceAt (i :: pos) x) = true :=
      (hname _ _ (Tree.name_replaceAt_cons ..)).trans ht
    have hmem : k ∈ t.kids := List.mem_of_getElem? hk
    rw [hwalk, hkeep _ henter, if_neg Bool.false_ne_true, if_pos henter, hreplace,
      Tree.kids_withKids hmem, List.flatMap_append, List.flatMap_cons, ih]
    simp only [List.nil_append, List.append_assoc]

end ContractNet.Syntax
