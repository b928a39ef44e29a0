import ContractNet.Proofs.Contract.Build

/-!
# The definitions that a contract keeps

A contract has a list of functions and room for one constructor.  What decides where a definition
goes is its name, which a function can share with the constructor.

* `namesConstructor`: the definition has the name of the constructor, by its rule or by its
  descriptor;
* `Contract.build_definitions`: all other definitions are among the functions, one by one, and of
  those with the name of the constructor only the last one is kept.  So a contract has all
  definitions if and only if at most one has this name.
-/

namespace ContractNet

open Syntax

/-- The walk through the definition of a contract reaches the node `d` at the position `pos`, and it
defines a function or a constructor. -/
def DefinitionAt (t : Tree) (pos : List Nat) (d : Tree) : Prop :=
  t.Reaches entersForMembers pos d ∧ (d.name = Rule.function ∨ d.name = Rule.constructor)

/-- The definition has the name of the constructor. -/
def namesConstructor (d : Tree) : Bool :=
  d.name = Rule.constructor || (d.child? Rule.descriptor).any fun desc =>
    ((desc.child? Rule.identifier).getD desc).text = constructorName

theorem functionName_eq_constructorName_iff {d : Tree} :
    functionName d = .ok constructorName ↔ namesConstructor d = true := by
  rw [functionName, namesConstructor, Bool.or_eq_true, decide_eq_true_eq]
  by_cases hd : d.name = Rule.constructor
  · rw [if_pos hd]
    exact iff_of_true rfl (.inl hd)
  · rw [if_neg hd, or_iff_right hd]
    simp only [bind_eq_ok_iff, pure_eq_ok_iff, require_eq_ok_iff, Option.any_eq_true,
      decide_eq_true_eq]

theorem Function.DefinedBy.isConstructor {d : Tree} {f : Function} (h : f.DefinedBy d) :
    namesConstructor d = f.isConstructor := by
  rw [Bool.eq_iff_iff, ← functionName_eq_constructorName_iff, h.name, Function.isConstructor,
    decide_eq_true_eq, Except.ok.injEq]

/-- The definitions of a contract, told apart by their names. -/
theorem Contract.DefinedBy.exists_definitions {t : Tree} {c : Contract} (h : c.DefinedBy t) :
    ∃ nodes, InOrder (DefinitionAt t) nodes ∧
      List.Forall₂ Function.DefinedBy (nodes.filter fun d => !namesConstructor d) c.functions ∧
      Option.Rel Function.DefinedBy (nodes.filter namesConstructor).getLast? c.constructor := by
  obtain ⟨nodes, fs, horder, hdefined, hfunctions, hconstructor⟩ := h.functions
  refine ⟨nodes, horder, ?_, ?_⟩
  · rw [hfunctions]
    refine List.rel_filter (fun d f hf => ?_) hdefined
    simp [hf.isConstructor, Function.isConstructor]
  · rw [hconstructor]
    refine rel_getLast? (List.rel_filter (fun d f hf => ?_) hdefined)
    simp [hf.isConstructor, Function.isConstructor]

/-- **Which definitions a contract keeps.**  Each definition without the name of the constructor gives
a function, in the order of the source, and the last one of the others gives the constructor.  The
others before it are lost, and only they: functions and constructor are as many as the definitions if
and only if at most one definition has the name of the constructor. -/
theorem Contract.build_definitions {root : Tree} {c : Contract}
    (h : Contract.build (some root) = .ok c) :
    ∃ pos t nodes, ContractAt root pos t ∧ InOrder (DefinitionAt t) nodes ∧
      List.Forall₂ Function.DefinedBy (nodes.filter fun d => !namesConstructor d) c.functions ∧
      Option.Rel Function.DefinedBy (nodes.filter namesConstructor).getLast? c.constructor ∧
      c.functions.length + (if c.constructor.isSome then 1 else 0) +
        (nodes.countP namesConstructor - 1) = nodes.length ∧
      (c.functions.length + (if c.constructor.isSome then 1 else 0) = nodes.length ↔
        nodes.countP namesConstructor ≤ 1) := by
  obtain ⟨pos, t, ht, hc⟩ := exists_contractAt_of_build h
  obtain ⟨nodes, horder, hfunctions, hconstructor⟩ := hc.exists_definitions
  -- a definition is a function or has the name of the constructor, and one of the latter is enough
  -- for the contract to have a constructor
  have hlength : c.functions.length + nodes.countP namesConstructor = nodes.length := by
    rw [← hfunctions.length_eq, ← List.countP_eq_length_filter, Nat.add_comm]
    simpa using (List.length_eq_countP_add_countP namesConstructor).symm
  have hsome : c.constructor.isSome ↔ 0 < nodes.countP namesConstructor := by
    rw [List.countP_eq_length_filter, List.length_pos_iff, ← List.getLast?_isSome]
    match (nodes.filter namesConstructor).getLast?, c.constructor, hconstructor with
    | _, _, .none => rfl
    | _, _, .some _ => rfl
  refine ⟨pos, t, nodes, ht, horder, hfunctions, hconstructor, ?_⟩
  simp only [hsome]
  constructor
  · split <;> omega
  · split <;> omega

/-- The tree of a contract with a constructor and a function of this name. -/
def escrowTree : Tree :=
  .rule "contractDefinition" [] 1 8 [
    .token "contract" 1 1, .rule "identifier" [] 1 1 [.token "Escrow" 1 1],
    .rule "contractPart" [] 2 4 [
      .rule "constructorDefinition" [] 2 4 [
        .rule "block" [] 2 4 [
          .rule "statement" [] 3 3 [
            .rule "expressionStatement" [] 3 3 [
              .rule "expression" [] 3 3 [
                .rule "expression" [] 3 3 [.token "total" 3 3],
                .token "=" 3 3,
                .rule "expression" [] 3 3 [.token "1" 3 3]]]]]]],
    .rule "contractPart" [] 5 7 [
      .rule "functionDefinition" [] 5 7 [
        .rule "functionDescriptor" [] 5 5 [
          .token "function" 5 5, .rule "identifier" [] 5 5 [.token "constructor" 5 5]],
        .rule "block" [] 5 7 []]]]

theorem Contract.build_definitions_escrow : ∃ c, Contract.build (some escrowTree) = .ok c ∧
    ∃ pos t nodes, ContractAt escrowTree pos t ∧ InOrder (DefinitionAt t) nodes ∧
      c.functions.length + (if c.constructor.isSome then 1 else 0) +
        (nodes.countP namesConstructor - 1) = nodes.length := by
  have hbuild : (Contract.build (some escrowTree)).toOption.map (·.functions.length) = some 0 := by
    decide +kernel
  obtain ⟨c, hc, -⟩ := exists_eq_ok_of_map_toOption hbuild
  obtain ⟨pos, t, nodes, ht, hnodes, -, -, hlength, -⟩ := Contract.build_definitions hc
  exact ⟨c, hc, pos, t, nodes, ht, hnodes, hlength⟩

/-- A definition that is lost: the constructor of `escrowTree`. -/
theorem Contract.build_definitions_overwritten :
    ∃ c nodes, Contract.build (some escrowTree) = .ok c ∧ ContractAt escrowTree [] escrowTree ∧
      InOrder (DefinitionAt escrowTree) nodes ∧
      c.functions.length + (if c.constructor.isSome then 1 else 0) ≠ nodes.length ∧
      c.constructor.map (·.body) = some [] := by
  have hbuild : (Contract.build (some escrowTree)).toOption.map (fun c => (c.functions.length +
      (if c.constructor.isSome then 1 else 0), c.constructor.map (·.body))) = some (1, some []) := by
    decide +kernel
  obtain ⟨c, hc, hkept⟩ := exists_eq_ok_of_map_toOption hbuild
  obtain ⟨hlength, hbody⟩ := Prod.mk.inj hkept
  refine ⟨c, _, hc, ⟨.here _, rfl, by decide +kernel⟩, inOrder_definitions rfl, ?_, hbody⟩
  rw [hlength]
  decide +kernel

end ContractNet
