import ContractNet.Proofs.Contract.Read

/-!
# Which parse trees are contracts

* `CompleteContract` says which parts a definition and its members need, and
  `exists_readContract_iff` that it is read if and only if it has them;
* `Contract.DefinedBy` says what it gives: variables and functions are those of a walk through the
  definition, in the order of the source;
* `Contract.build_spec`: a tree gives a contract if and only if it has exactly one definition that
  counts and this one is complete.
-/

namespace ContractNet

open Syntax

/-! ### Members -/

/-- The walk to members enters the node: it is no token, no name and no member. -/
def entersForMembers (t : Tree) : Bool :=
  !t.isToken && t.name ≠ Rule.identifier && !isMember t

/-- The definition and its members have the parts that a contract needs. -/
structure CompleteContract (t : Tree) : Prop where
  name : t.Has Rule.identifier
  declarations : ∀ pos x, t.Reaches entersForMembers pos x → x.name = Rule.stateVariable →
    CompleteVariable x
  definitions : ∀ pos x, t.Reaches entersForMembers pos x →
    x.name = Rule.function ∨ x.name = Rule.constructor → CompleteFunction x

theorem isMember_iff {t : Tree} : isMember t = true ↔
    t.name = Rule.stateVariable ∨ t.name = Rule.function ∨ t.name = Rule.constructor := by
  simp [isMember, or_assoc]

theorem isWalk_members : IsWalk entersForMembers isMember members := by
  have hall : ∀ ts, membersAll ts = ts.flatMap members :=
    eq_flatMap (by rw [membersAll]) fun t ts => by rw [membersAll]
  intro t
  cases t with
  | token => rfl
  | rule n source start stop ks =>
    rw [members, hall]
    by_cases hskip : (n.isEmpty || n = Rule.identifier) = true
    · -- what is skipped is no member either: members have rules of their own
      have hkeep : isMember (.rule n source start stop ks) = false := by
        rw [← Bool.not_eq_true, isMember_iff]
        simp only [Bool.or_eq_true, List.isEmpty_iff, decide_eq_true_eq] at hskip
        simp only [Tree.name]
        rcases hskip with rfl | rfl <;> decide
      have henter : entersForMembers (.rule n source start stop ks) = false := by
        simp only [Bool.or_eq_true, decide_eq_true_eq] at hskip
        rcases hskip with h | h <;> simp [entersForMembers, Tree.isToken, Tree.name, h]
      rw [if_pos hskip, hkeep, henter]
      rfl
    · have henter : entersForMembers (.rule n source start stop ks) =
          !isMember (.rule n source start stop ks) := by
        simp only [Bool.or_eq_true, decide_eq_true_eq, not_or] at hskip
        simp [entersForMembers, Tree.isToken, Tree.name, hskip]
      rw [if_neg hskip, henter]
      cases isMember (.rule n source start stop ks) <;> rfl

/-- The walk to the members of a contract starts at its definition. -/
theorem membersAll_eq {t : Tree} (ht : t.name = Rule.contractDefinition) :
    membersAll t.kids = members t := by
  cases t with
  | token => cases ht
  | rule n source start stop ks =>
    obtain rfl : n = Rule.contractDefinition := ht
    rfl

theorem inOrder_membersAll {t : Tree} (ht : t.name = Rule.contractDefinition) :
    InOrder (fun pos x => t.Reaches entersForMembers pos x ∧ isMember x = true)
      (membersAll t.kids) :=
  membersAll_eq ht ▸ isWalk_members.inOrder t

theorem ne_stateVariable {t : Tree} (ht : t.name = Rule.function ∨ t.name = Rule.constructor) :
    t.name ≠ Rule.stateVariable := by
  rcases ht with ht | ht <;> rw [ht] <;> decide

theorem inOrder_definitions {t : Tree} (ht : t.name = Rule.contractDefinition) :
    InOrder (fun pos x => t.Reaches entersForMembers pos x ∧
      (x.name = Rule.function ∨ x.name = Rule.constructor))
      ((membersAll t.kids).filter (·.name ≠ Rule.stateVariable)) := by
  refine ((inOrder_membersAll ht).filter _).congr fun pos x => ?_
  simp only [isMember_iff, decide_eq_true_eq]
  exact ⟨fun h => ⟨h.1.1, h.1.2.resolve_left h.2⟩,
    fun h => ⟨⟨h.1, .inr h.2⟩, ne_stateVariable h.2⟩⟩

theorem readMember_of_stateVariable {t : Tree} (ht : t.name = Rule.stateVariable) :
    readMember t = .stateVariable <$> readVariable t := if_pos ht

theorem readMember_of_ne {t : Tree} (ht : t.name ≠ Rule.stateVariable) :
    readMember t = .definition <$> readFunction t := if_neg ht

theorem exists_readMember_iff {t : Tree} (ht : isMember t = true) :
    (∃ m, readMember t = .ok m) ↔ (t.name = Rule.stateVariable → CompleteVariable t) ∧
      (t.name = Rule.function ∨ t.name = Rule.constructor → CompleteFunction t) := by
  rcases isMember_iff.1 ht with hv | hf
  · rw [readMember_of_stateVariable hv, exists_map_eq_ok_iff, exists_readVariable_iff,
      and_iff_left, imp_iff_right hv]
    exact fun hf => absurd hv (ne_stateVariable hf)
  · rw [readMember_of_ne (ne_stateVariable hf), exists_map_eq_ok_iff, exists_readFunction_iff hf,
      and_iff_right, imp_iff_right hf]
    exact fun hv => absurd hv (ne_stateVariable hf)

/-- **A definition is read if and only if it is complete.** -/
theorem exists_readContract_iff {t : Tree} (ht : t.name = Rule.contractDefinition) :
    (∃ c, readContract t = .ok c) ↔ CompleteContract t := by
  have hmembers : (∃ ms, (membersAll t.kids).mapM readMember = .ok ms) ↔
      ∀ pos x, t.Reaches entersForMembers pos x → isMember x = true →
        (x.name = Rule.stateVariable → CompleteVariable x) ∧
        (x.name = Rule.function ∨ x.name = Rule.constructor → CompleteFunction x) := by
    simp only [exists_mapM_eq_ok_iff, (inOrder_membersAll ht).mem_iff]
    constructor
    · intro h pos x hx hm
      exact (exists_readMember_iff hm).1 (h x ⟨pos, hx, hm⟩)
    · rintro h x ⟨pos, hx, hm⟩
      exact (exists_readMember_iff hm).2 (h pos x hx hm)
  have hsplit : (∃ c, readContract t = .ok c) ↔
      t.Has Rule.identifier ∧ ∃ ms, (membersAll t.kids).mapM readMember = .ok ms := by
    simp only [readContract, bind_eq_ok_iff, require_eq_ok_iff, pure_eq_ok_iff,
      ← exists_child?_iff]
    constructor
    · rintro ⟨_, ident, hident, ms, hms, -⟩
      exact ⟨⟨ident, hident⟩, ms, hms⟩
    · rintro ⟨⟨ident, hident⟩, ms, hms⟩
      exact ⟨_, ident, hident, ms, hms, rfl⟩
  rw [hsplit, hmembers]
  constructor
  · rintro ⟨hname, h⟩
    exact ⟨hname, fun pos x hx hv => (h pos x hx (isMember_iff.2 (.inl hv))).1 hv,
      fun pos x hx hf => (h pos x hx (isMember_iff.2 (.inr hf))).2 hf⟩
  · rintro ⟨hname, hvariables, hfunctions⟩
    exact ⟨hname, fun pos x hx _ => ⟨hvariables pos x hx, hfunctions pos x hx⟩⟩

/-! ### Members in the order of the source -/

section Members

variable {xs : List Tree} {ms : List Member}

theorem forall₂_declaredBy (h : List.Forall₂ (fun x m => readMember x = .ok m) xs ms) :
    List.Forall₂ StateVariable.DeclaredBy (xs.filter (·.name = Rule.stateVariable))
      (ms.filterMap Member.stateVariable?) := by
  induction h with
  | nil => exact .nil
  | @cons x m xs ms hx _ ih =>
    by_cases hv : x.name = Rule.stateVariable
    · rw [readMember_of_stateVariable hv, map_eq_ok_iff] at hx
      obtain ⟨v, hread, rfl⟩ := hx
      rw [List.filter_cons_of_pos (by simpa using hv)]
      exact .cons (readVariable_eq_ok_iff.1 hread) ih
    · rw [readMember_of_ne hv, map_eq_ok_iff] at hx
      obtain ⟨f, -, rfl⟩ := hx
      rwa [List.filter_cons_of_neg (by simpa using hv)]

theorem forall₂_definedBy (h : List.Forall₂ (fun x m => readMember x = .ok m) xs ms) :
    List.Forall₂ Function.DefinedBy (xs.filter (·.name ≠ Rule.stateVariable))
      (ms.filterMap Member.definition?) := by
  induction h with
  | nil => exact .nil
  | @cons x m xs ms hx _ ih =>
    by_cases hv : x.name = Rule.stateVariable
    · rw [readMember_of_stateVariable hv, map_eq_ok_iff] at hx
      obtain ⟨v, -, rfl⟩ := hx
      rwa [List.filter_cons_of_neg (by simpa using hv)]
    · rw [readMember_of_ne hv, map_eq_ok_iff] at hx
      obtain ⟨f, hread, rfl⟩ := hx
      rw [List.filter_cons_of_pos (by simpa using hv)]
      exact .cons (readFunction_eq_ok_iff.1 hread) ih

end Members

/-- The contract is the one that the node defines: its variables and functions are those of the
members in the order of the source.  A function with the name of a constructor is none of the
functions, and the last one is the constructor. -/
structure Contract.DefinedBy (t : Tree) (c : Contract) : Prop where
  name : ∃ ident, t.child? Rule.identifier = some ident ∧ c.name = ident.text
  stateVariables : ∃ nodes,
    InOrder (fun pos x => t.Reaches entersForMembers pos x ∧ x.name = Rule.stateVariable) nodes ∧
    List.Forall₂ StateVariable.DeclaredBy nodes c.stateVariables
  functions : ∃ nodes fs,
    InOrder (fun pos x => t.Reaches entersForMembers pos x ∧
      (x.name = Rule.function ∨ x.name = Rule.constructor)) nodes ∧
    List.Forall₂ Function.DefinedBy nodes fs ∧
    c.functions = fs.filter (fun f => f.name ≠ constructorName) ∧
    c.constructor = (fs.filter fun f => f.name = constructorName).getLast?

theorem definedBy_of_readContract {t : Tree} {c : Contract} (ht : t.name = Rule.contractDefinition)
    (h : readContract t = .ok c) : c.DefinedBy t := by
  simp only [readContract, bind_eq_ok_iff, require_eq_ok_iff, pure_eq_ok_iff, mapM_eq_ok_iff] at h
  obtain ⟨ident, hident, ms, hms, rfl⟩ := h
  have horder := inOrder_membersAll ht
  refine ⟨⟨ident, hident, rfl⟩, ⟨_, ?_, forall₂_declaredBy hms⟩, ⟨_, _, ?_, forall₂_definedBy hms,
    ?_, rfl⟩⟩
  · refine (horder.filter _).congr fun pos x => ?_
    simp only [isMember_iff, decide_eq_true_eq]
    exact ⟨fun h => ⟨h.1.1, h.2⟩, fun h => ⟨⟨h.1, .inl h.2⟩, h.2⟩⟩
  · exact inOrder_definitions ht
  · simp [Contract.ofMembers, Function.isConstructor]

/-- The functions of a contract are those of definitions that the walk reaches. -/
theorem Contract.DefinedBy.exists_definition {t : Tree} {c : Contract} (h : c.DefinedBy t)
    {f : Function} (hf : f ∈ c.allFunctions) :
    ∃ pos d, t.Reaches entersForMembers pos d ∧ f.DefinedBy d := by
  obtain ⟨nodes, fs, horder, hdefined, hfunctions, hconstructor⟩ := h.functions
  -- the constructor and the other functions are among those that the nodes define
  have hmem : f ∈ fs := by
    rcases List.mem_append.1 hf with hf | hf
    · rw [hconstructor, Option.mem_toList] at hf
      exact List.mem_of_mem_filter (List.mem_of_getLast? hf)
    · rw [hfunctions] at hf
      exact List.mem_of_mem_filter hf
  obtain ⟨d, hd, hdefines⟩ := exists_left_of_mem hdefined hmem
  obtain ⟨pos, hpos, -⟩ := horder.mem_iff.1 hd
  exact ⟨pos, d, hpos, hdefines⟩

/-! ### Trees -/

/-- The node defines a contract, neither an interface nor a library. -/
def definesContract (t : Tree) : Bool :=
  t.name = Rule.contractDefinition && !isInterfaceOrLibrary t

theorem isWalk_contracts :
    IsWalk (fun t => t.name ≠ Rule.contractDefinition) definesContract contracts := by
  have hall : ∀ ts, contractsAll ts = ts.flatMap contracts :=
    eq_flatMap (by rw [contractsAll]) fun t ts => by rw [contractsAll]
  intro t
  cases t with
  | token => rfl
  | rule n source start stop ks =>
    rw [contracts, hall]
    by_cases hn : n = Rule.contractDefinition
    · simp only [definesContract, Tree.name, hn, if_true]
      cases isInterfaceOrLibrary _ <;> rfl
    · simp [definesContract, Tree.name, Tree.kids, hn]

/-- The node `t` at the position `pos` is a contract definition that stands in no other one and is
neither an interface nor a library. -/
structure ContractAt (root : Tree) (pos : List Nat) (t : Tree) : Prop where
  outermost : root.Reaches (fun t => t.name ≠ Rule.contractDefinition) pos t
  definition : t.name = Rule.contractDefinition
  kind : isInterfaceOrLibrary t = false

theorem inOrder_contracts (root : Tree) : InOrder (ContractAt root) (contracts root) := by
  refine (isWalk_contracts.inOrder root).congr fun pos t => ?_
  simp only [definesContract, Bool.and_eq_true, decide_eq_true_eq, Bool.not_eq_true']
  exact ⟨fun h => ⟨h.1, h.2.1, h.2.2⟩, fun h => ⟨h.outermost, h.definition, h.kind⟩⟩

theorem build_eq_ok_iff {root : Tree} {c : Contract} : Contract.build (some root) = .ok c ↔
    ∃ t, contracts root = [t] ∧ readContract t = .ok c := by
  rw [Contract.build]
  match contracts root with
  | [] => simp
  | [t] => simp
  | _ :: _ :: _ => simp

/-- A contract that was built is the one that a node of the tree defines. -/
theorem exists_contractAt_of_build {root : Tree} {c : Contract}
    (h : Contract.build (some root) = .ok c) : ∃ pos t, ContractAt root pos t ∧ c.DefinedBy t := by
  obtain ⟨t, ht, hc⟩ := build_eq_ok_iff.1 h
  obtain ⟨pos, hpos⟩ := (inOrder_contracts root).mem_iff.1 (ht ▸ List.mem_singleton_self t)
  exact ⟨pos, t, hpos, definedBy_of_readContract hpos.definition hc⟩

/-- **A tree gives a contract** if and only if exactly one of its outermost definitions counts and
this one is complete.  Then the contract is the one that it defines. -/
theorem Contract.build_spec (root : Tree) :
    ((∃ c, Contract.build (some root) = .ok c) ↔
      ∃ pos t, ContractAt root pos t ∧ (∀ pos' t', ContractAt root pos' t' → pos' = pos) ∧
        CompleteContract t) ∧
    ∀ c, Contract.build (some root) = .ok c →
      ∃ pos t, ContractAt root pos t ∧ c.DefinedBy t := by
  have horder := inOrder_contracts root
  have hdefinition : ∀ t, contracts root = [t] → ∃ pos, ContractAt root pos t := fun t ht =>
    horder.mem_iff.1 (ht ▸ List.mem_singleton_self t)
  constructor
  · rw [← horder.exists_eq_singleton_iff]
    simp only [build_eq_ok_iff]
    constructor
    · rintro ⟨c, t, ht, hc⟩
      obtain ⟨pos, hpos⟩ := hdefinition t ht
      exact ⟨t, ht, (exists_readContract_iff hpos.definition).1 ⟨c, hc⟩⟩
    · rintro ⟨t, ht, hcomplete⟩
      obtain ⟨pos, hpos⟩ := hdefinition t ht
      obtain ⟨c, hc⟩ := (exists_readContract_iff hpos.definition).2 hcomplete
      exact ⟨c, t, ht, hc⟩
  · intro c hc
    obtain ⟨t, ht, hc⟩ := build_eq_ok_iff.1 hc
    obtain ⟨pos, hpos⟩ := hdefinition t ht
    exact ⟨pos, t, hpos, definedBy_of_readContract hpos.definition hc⟩

/-- The tree of a file with an interface and a contract, which has a variable and a constructor. -/
def walletTree : Tree :=
  .rule "sourceUnit" [] 1 8 [
    .rule "contractDefinition" [] 1 2 [
      .token "interface" 1 1, .rule "identifier" [] 1 1 [.token "Payable" 1 1]],
    .rule "contractDefinition" [] 3 8 [
      .token "contract" 3 3, .rule "identifier" [] 3 3 [.token "Wallet" 3 3],
      .rule "contractPart" [] 4 4 [
        .rule "stateVariableDeclaration" [] 4 4 [
          .rule "typeName" [] 4 4 [.token "uint256" 4 4],
          .rule "identifier" [] 4 4 [.token "total" 4 4]]],
      .rule "contractPart" [] 5 7 [
        .rule "constructorDefinition" [] 5 7 [
          .rule "parameterList" [] 5 5 [],
          .rule "block" [] 5 7 [
            .rule "statement" [] 6 6 [
              .rule "ifStatement" [] 6 6 [.rule "expression" [] 6 6 [.token "total" 6 6]]]]]]]]

theorem Contract.build_spec_wallet : ∃ c, Contract.build (some walletTree) = .ok c ∧
    c.name = "Wallet" ∧ c.stateVariables.length = 1 ∧
    (c.constructor.map (·.body.length)) = some 1 ∧
    ∃ pos t, ContractAt walletTree pos t ∧ c.DefinedBy t :=
  ⟨_, rfl, rfl, rfl, rfl, (Contract.build_spec walletTree).2 _ rfl⟩

end ContractNet
