import ContractNet.Proofs.Contract.Congruence

/-!
# Code that is not visited

The walk through the body of a function stops at branches and at all statements but expressions.
What stands below such a node has no influence on the contract.

* `BodyAt`: the nodes that the walk through a definition reaches, with their positions; `VisitedAt`
  are those that building a contract reaches in all definitions;
* `readFunction_replaceAt`: a definition is read the same when a node in its body is replaced by one
  with the same shell and the same statements;
* `Contract.build_replaceAt_skipped`: **what is below a node that is not entered does not matter**,
  be it well formed or not; for a branch, the text of its condition does.
-/

namespace ContractNet

open Syntax

/-! ### Positions in bodies -/

/-- The node `x` at the position `pos` of the definition `d` is reached by the walk through its body,
which starts at its first block. -/
def BodyAt (d : Tree) (pos : List Nat) (x : Tree) : Prop :=
  ∃ i b pos', pos = i :: pos' ∧ d.kids.findIdx? (·.name = Rule.block) = some i ∧
    d.kids[i]? = some b ∧ b.Reaches (fun t => isWrapper t.name) pos' x

/-- The node `x` at the position `pos` is reached by the walk through the body of a definition, which
is a member of an outermost contract definition. -/
def VisitedAt (root : Tree) (pos : List Nat) (x : Tree) : Prop :=
  ∃ p t q d r, pos = p ++ (q ++ r) ∧
    root.Reaches (fun t => t.name ≠ Rule.contractDefinition) p t ∧
    t.name = Rule.contractDefinition ∧
    t.Reaches entersForMembers q d ∧ (d.name = Rule.function ∨ d.name = Rule.constructor) ∧
    BodyAt d r x

variable {root t d b x x' : Tree} {pos : List Nat}

/-! ### Nodes that are not entered -/

theorem statements_eq_of_not_wrapper (hx : isWrapper x.name = false) :
    statements x = if isStatement x then [x] else [] := by
  have hwalk := isWalk_statements x
  simpa only [hx, Bool.false_eq_true, if_false, List.append_nil] using hwalk

theorem forall₂_statements_of_skipped (h : x.SameShell x') (hwrapper : isWrapper x.name = false)
    (hexpression : x.name ≠ Rule.expressionStatement)
    (hcondition : x.name = Rule.ifStatement → (x'.child? Rule.expression).map Tree.text =
      (x.child? Rule.expression).map Tree.text) :
    List.Forall₂ (fun y y' => readStatement y' = readStatement y) (statements x)
      (statements x') := by
  have hwrapper' : isWrapper x'.name = false := by rw [h.name, hwrapper]
  rw [statements_eq_of_not_wrapper hwrapper, statements_eq_of_not_wrapper hwrapper']
  by_cases hif : x.name = Rule.ifStatement
  · have hif' : x'.name = Rule.ifStatement := h.name.trans hif
    have hstatement : isStatement x = true := by simp [isStatement, hif]
    have hstatement' : isStatement x' = true := by simp [isStatement, hif']
    have hread := readIf_congr h (isToken_of_name hif rfl) (hcondition hif)
    rw [if_pos hstatement, if_pos hstatement']
    refine .cons ?_ .nil
    rw [readStatement, readStatement, if_pos hif, if_pos hif', hread]
  · have hstatement : isStatement x = false := by simp [isStatement, hif, hexpression]
    have hstatement' : isStatement x' = false := by simp [isStatement, h.name, hif, hexpression]
    rw [hstatement, hstatement']
    exact .nil

/-! ### Definitions -/

/-- A definition keeps its shell. -/
theorem BodyAt.sameShell (hx : BodyAt d pos x) (h : x.SameShell x') :
    d.SameShell (d.replaceAt pos x') := by
  obtain ⟨i, b, pos, rfl, -, hb, hreach⟩ := hx
  have hdown : d.Reaches (fun _ => true) [i] b := .down rfl hb (.here b)
  rw [← List.singleton_append, hdown.replaceAt_append]
  exact hdown.sameShell (hreach.sameShell h)

theorem require_congr {α : Type} {f : BuildFault} (h : f.atNode x' = f.atNode x) (o : Option α) :
    require x' f o = require x f o := by
  cases o with
  | none => exact congrArg Except.error h
  | some a => rfl

/-- **A definition is read the same** when a node in its body is replaced by one with the same shell
that gives the same statements. -/
theorem readFunction_replaceAt (hx : BodyAt d pos x) (hd : d.isToken = false) (h : x.SameShell x')
    (hstatements : List.Forall₂ (fun y y' => readStatement y' = readStatement y) (statements x)
      (statements x')) : readFunction (d.replaceAt pos x') = readFunction d := by
  have hshell := hx.sameShell h
  obtain ⟨i, b, pos, rfl, hfirst, hb, hreach⟩ := hx
  have hbshell : b.SameShell (b.replaceAt pos x') := hreach.sameShell h
  have hdown : d.Reaches (fun _ => true) [i] b := .down rfl hb (.here b)
  have hblock : d.child? Rule.block = some b := by
    have hself : (d.replaceAt [i] b).child? Rule.block = some b :=
      Tree.child?_replaceAt_of_first hb hfirst rfl
    rwa [hdown.replaceAt_self] at hself
  have hblock' : (d.replaceAt (i :: pos) x').child? Rule.block = some (b.replaceAt pos x') :=
    Tree.child?_replaceAt_of_first hb hfirst hbshell.name
  have hname : b.name = Rule.block := name_of_child? hblock
  have hother : ∀ rule, Rule.block ≠ rule →
      (d.replaceAt (i :: pos) x').child? rule = d.child? rule := fun rule hrule =>
    Tree.child?_replaceAt_of_ne hb (hname ▸ hrule) hbshell.name
  have hbody : readBody (some (b.replaceAt pos x')) = readBody (some b) := by
    obtain ⟨before, after, hbefore, hafter⟩ := isWalk_statements.exists_replaceAt
      (fun t t' ht => by rw [ht]) (fun t ht => isStatement_of_isWrapper ht) hreach
    refine readBody_congr hname (hbshell.name.trans hname) ?_
    rw [hbefore, hafter]
    refine forall₂_middle ?_ hstatements before after
    exact fun _ => rfl
  simp only [readFunction, functionName, functionVisibility, hshell.name, hblock, hblock', hbody,
    require_congr (atNode_congr hshell hd _), hother Rule.descriptor (by decide),
    hother Rule.modifiers (by decide), hother Rule.parameterList (by decide),
    hother Rule.returns (by decide)]

/-! ### Contracts -/

theorem members_of_isMember (hd : isMember d = true) : members d = [d] := by
  have hwalk := isWalk_members d
  have henter : entersForMembers d = false := by simp [entersForMembers, hd]
  simpa only [hd, henter, Bool.false_eq_true, if_false, if_true, List.append_nil] using hwalk

/-- Every node above a member is one that is entered, so no such node is a token or a name. -/
theorem Syntax.Tree.Reaches.name_of_member {q : List Nat} (hd : isMember d = true)
    (h : t.Reaches entersForMembers q d) : t.isToken = false ∧ t.name ≠ Rule.identifier := by
  cases h with
  | here =>
    refine ⟨isToken_of_isMember hd, fun hname => ?_⟩
    rw [isMember, hname] at hd
    exact absurd hd (by decide)
  | down ht =>
    simp only [entersForMembers, Bool.and_eq_true, Bool.not_eq_true', decide_eq_true_eq] at ht
    exact ht.1

theorem leadingKeyword_append_cons (before after : List Tree) {k k' : Tree}
    (hk : k.isToken = false) (hk' : k'.isToken = false) :
    leadingKeyword (before ++ k' :: after) = leadingKeyword (before ++ k :: after) := by
  induction before with
  | nil => simp [leadingKeyword, hk, hk']
  | cons a before ih => simp only [List.cons_append, leadingKeyword, ih]

/-- A contract definition is read the same, and as one of the same kind, when one of its definitions
is replaced by one with the same shell that is read the same. -/
theorem readContract_replaceAt {q : List Nat} {d' : Tree} (ht : t.name = Rule.contractDefinition)
    (hreach : t.Reaches entersForMembers q d)
    (hd : d.name = Rule.function ∨ d.name = Rule.constructor) (h : d.SameShell d')
    (hread : readFunction d' = readFunction d) :
    readContract (t.replaceAt q d') = readContract t ∧
      isInterfaceOrLibrary (t.replaceAt q d') = isInterfaceOrLibrary t := by
  have hd' : d'.name = Rule.function ∨ d'.name = Rule.constructor := by rwa [h.name]
  have hmember := isMember_of_definition hd
  have hshell : t.SameShell (t.replaceAt q d') := hreach.sameShell h
  have hmembers : List.Forall₂ (fun y y' => readMember y' = readMember y) (members t)
      (members (t.replaceAt q d')) := by
    obtain ⟨before, after, hbefore, hafter⟩ := isWalk_members.exists_replaceAt
      (fun t t' hname => by simp only [entersForMembers, isMember, Tree.isToken, hname])
      (fun t henter => by
        simp only [entersForMembers, Bool.and_eq_true, Bool.not_eq_true'] at henter
        exact henter.2) hreach
    rw [hbefore, hafter, members_of_isMember hmember,
      members_of_isMember (isMember_of_definition hd')]
    refine forall₂_middle ?_ (.cons ?_ .nil) before after
    · exact fun _ => rfl
    · rw [readMember_of_ne (ne_stateVariable hd), readMember_of_ne (ne_stateVariable hd'), hread]
  cases hreach with
  | here =>
    rcases hd with hd | hd <;> rw [ht] at hd <;> exact absurd hd (by decide)
  | @down _ k _ i q _ hk hreach =>
    obtain ⟨htoken, hname⟩ := hreach.name_of_member hmember
    have hkshell : k.SameShell (k.replaceAt q d') := hreach.sameShell h
    constructor
    · have hident := Tree.child?_replaceAt_of_ne hk hname hkshell.name
      exact readContract_congr hshell ht (congrArg _ hident) hmembers
    · obtain ⟨before, after, -, hkids, hreplace⟩ := Tree.exists_replaceAt_cons hk
      have hkids' := Tree.kids_withKids (List.mem_of_getElem? hk) (before ++ k.replaceAt q d' :: after)
      have hkeyword := leadingKeyword_append_cons before after htoken (hkshell.isToken.trans htoken)
      rw [isInterfaceOrLibrary, isInterfaceOrLibrary, hreplace, hkids', hkeyword, ← hkids]

/-! ### Trees -/

theorem contracts_of_definition (ht : t.name = Rule.contractDefinition) :
    contracts t = if isInterfaceOrLibrary t then [] else [t] := by
  have hwalk := isWalk_contracts t
  have hkeep : definesContract t = !isInterfaceOrLibrary t := by simp [definesContract, ht]
  rw [hwalk, hkeep]
  cases isInterfaceOrLibrary t <;> simp [ht]

/-- **Code that is not visited does not matter.**  When the walk through the body of a function stops
at a node, which is a branch or no statement of the model, the node may be replaced by any other one
with the same rule and lines; of a branch, the text of the condition has to stay, if there is one.
The tree still gives the same contract, or the same error. -/
theorem Contract.build_replaceAt_skipped (hx : VisitedAt root pos x)
    (hwrapper : isWrapper x.name = false) (hexpression : x.name ≠ Rule.expressionStatement)
    (h : x.SameShell x')
    (hcondition : x.name = Rule.ifStatement → (x'.child? Rule.expression).map Tree.text =
      (x.child? Rule.expression).map Tree.text) :
    Contract.build (some (root.replaceAt pos x')) = Contract.build (some root) := by
  obtain ⟨p, t, q, d, r, rfl, hroot, ht, hreach, hd, hbody⟩ := hx
  let d' := d.replaceAt r x'
  let t' := t.replaceAt q d'
  have hdshell : d.SameShell d' := hbody.sameShell h
  have htshell : t.SameShell t' := hreach.sameShell hdshell
  have hread : readFunction d' = readFunction d :=
    readFunction_replaceAt hbody (isToken_of_isMember (isMember_of_definition hd)) h
      (forall₂_statements_of_skipped h hwrapper hexpression hcondition)
  obtain ⟨hcontract, hkind⟩ := readContract_replaceAt ht hreach hd hdshell hread
  have hreplace : root.replaceAt (p ++ (q ++ r)) x' = root.replaceAt p t' := by
    rw [hroot.replaceAt_append, hreach.replaceAt_append]
  obtain ⟨before, after, hbefore, hafter⟩ := isWalk_contracts.exists_replaceAt
    (fun t t' hname => by rw [hname])
    (fun t henter => by simp_all [definesContract]) hroot
  rw [hreplace]
  refine build_congr (hroot.sameShell htshell) ?_
  rw [hbefore, hafter, contracts_of_definition ht,
    contracts_of_definition (htshell.name.trans ht), hkind]
  refine forall₂_middle ?_ ?_ before after
  · exact fun _ => ⟨rfl, rfl⟩
  · split
    · exact .nil
    · exact .cons ⟨htshell.location, hcontract⟩ .nil

/-- The branch in the constructor of `walletTree`. -/
def walletBranch : Tree :=
  .rule "ifStatement" [] 6 6 [.rule "expression" [] 6 6 [.token "total" 6 6]]

/-- The same condition, with another contract and a statement without an expression below it. -/
def brokenBranch : Tree :=
  .rule "ifStatement" "if (total)" 6 0 [
    .rule "block" [] 1 2 [.rule "expressionStatement" [] 2 2 []],
    .rule "expression" "total" 9 9 [.token "0" 9 9],
    .rule "contractDefinition" [] 3 4 [.token "contract" 3 3],
    .token ";" 0 6]

theorem Contract.build_replaceAt_skipped_wallet :
    VisitedAt walletTree [1, 3, 0, 1, 0, 0] walletBranch ∧
      Contract.build (some (walletTree.replaceAt [1, 3, 0, 1, 0, 0] brokenBranch)) =
        Contract.build (some walletTree) ∧
      ∃ c, Contract.build (some walletTree) = .ok c := by
  have hvisited : VisitedAt walletTree [1, 3, 0, 1, 0, 0] walletBranch :=
    ⟨[1], _, [3, 0], _, [1, 0, 0], rfl, .down (by decide +kernel) rfl (.here _), rfl,
      .down (by decide +kernel) rfl (.down (by decide +kernel) rfl (.here _)), .inr rfl,
      1, _, [0, 0], rfl, rfl, rfl,
      .down (by decide +kernel) rfl (.down (by decide +kernel) rfl (.here _))⟩
  have hshell : walletBranch.SameShell brokenBranch := ⟨rfl, rfl, rfl⟩
  exact ⟨hvisited, Contract.build_replaceAt_skipped hvisited (by decide +kernel) (by decide +kernel)
    hshell fun _ => by decide +kernel, _, rfl⟩

end ContractNet
