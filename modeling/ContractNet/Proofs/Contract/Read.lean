import ContractNet.Contract.Build
import ContractNet.Proofs.Results
import ContractNet.Proofs.Syntax.Walk

/-!
# Reading variables and functions

For each construct of the grammar, one statement says when it is read and one what it is read as.

* `CompleteVariable` and `CompleteFunction` say which parts a declaration and a definition need
  (`exists_readVariable_iff`, `exists_readFunction_iff`);
* `StateVariable.DeclaredBy` and `Function.DefinedBy` say what they give
  (`readVariable_eq_ok_iff`, `readFunction_eq_ok_iff`);
* `StatementAt`: the statements of a function are those of a walk through its first block.
-/

namespace ContractNet

open Syntax

theorem require_eq_ok_iff {α : Type} {n : Tree} {f : BuildFault} {o : Option α} {a : α} :
    require n f o = .ok a ↔ o = some a := by
  cases o <;> simp [require]

/-- The node has a child with the given rule. -/
def Syntax.Tree.Has (t : Tree) (rule : Text) : Prop := ∃ k ∈ t.kids, k.name = rule

theorem exists_child?_iff {t : Tree} {rule : Text} :
    (∃ k, t.child? rule = some k) ↔ t.Has rule := by
  rw [← Option.isSome_iff_exists, Tree.child?, List.find?_isSome]
  simp [Tree.Has]

theorem name_of_child? {t k : Tree} {rule : Text} (h : t.child? rule = some k) : k.name = rule := by
  simpa using List.find?_some h

/-- What needs one child and no more is read if and only if there is such a child. -/
theorem exists_require_bind_iff {α : Type} {n t : Tree} {f : BuildFault} {rule : Text}
    {g : Tree → Except BuildError α} (hg : ∀ k, ∃ a, g k = .ok a) :
    (∃ a, require n f (t.child? rule) >>= g = .ok a) ↔ t.Has rule := by
  simp only [bind_eq_ok_iff, require_eq_ok_iff, ← exists_child?_iff]
  constructor
  · rintro ⟨_, k, hk, -⟩
    exact ⟨k, hk⟩
  · rintro ⟨k, hk⟩
    obtain ⟨a, ha⟩ := hg k
    exact ⟨a, k, hk, ha⟩

/-! ### Variables -/

/-- The declaration has the parts that a variable needs. -/
structure CompleteVariable (t : Tree) : Prop where
  type : t.Has Rule.typeName
  name : t.Has Rule.identifier
  mapping : ∀ type first, t.child? Rule.typeName = some type → type.kids.head? = some first →
    first.name = Rule.mapping → first.Has Rule.mappingKey ∧ first.Has Rule.typeName

/-- The variable is the one that the node declares. -/
structure StateVariable.DeclaredBy (t : Tree) (v : StateVariable) : Prop where
  name : ∃ ident, t.child? Rule.identifier = some ident ∧ v.name = ident.text
  type : ∃ type indexed, t.child? Rule.typeName = some type ∧
    indexedType v.name type.kids = .ok indexed ∧
    v.type = (indexed.map Prod.snd).getD type.text ∧ v.index = (indexed.map Prod.fst).getD []
  initial : v.initial = ((t.child? Rule.expression).map Tree.text).getD []
  visibility : v.visibility = variableVisibility t

theorem exists_indexedType_iff {name : Text} {kids : List Tree} :
    (∃ indexed, indexedType name kids = .ok indexed) ↔ ∀ first, kids.head? = some first →
      first.name = Rule.mapping → first.Has Rule.mappingKey ∧ first.Has Rule.typeName := by
  cases kids with
  | nil => simp [indexedType]
  | cons first kids =>
    simp only [indexedType, List.head?_cons, Option.some.injEq, forall_eq', ← exists_child?_iff]
    by_cases hm : first.name = Rule.mapping
    · simp only [hm, if_true, true_imp_iff]
      cases first.child? Rule.mappingKey <;> cases first.child? Rule.typeName <;> simp
    · simp only [hm, if_false, false_imp_iff, iff_true]
      split
      · exact ⟨_, rfl⟩
      · exact ⟨_, rfl⟩

theorem readVariable_eq_ok_iff {t : Tree} {v : StateVariable} :
    readVariable t = .ok v ↔ v.DeclaredBy t := by
  simp only [readVariable, bind_eq_ok_iff, require_eq_ok_iff, pure_eq_ok_iff]
  constructor
  · rintro ⟨type, htype, ident, hident, indexed, hindexed, rfl⟩
    exact ⟨⟨ident, hident, rfl⟩, ⟨type, indexed, htype, hindexed, rfl, rfl⟩, rfl, rfl⟩
  · rintro ⟨⟨ident, hident, hname⟩, ⟨type, indexed, htype, hindexed, htext, hindex⟩, hinitial,
      hvisibility⟩
    refine ⟨type, htype, ident, hident, indexed, hname ▸ hindexed, ?_⟩
    rw [← hname, ← htext, ← hindex, ← hinitial, ← hvisibility]

theorem exists_readVariable_iff {t : Tree} :
    (∃ v, readVariable t = .ok v) ↔ CompleteVariable t := by
  simp only [readVariable, bind_eq_ok_iff, require_eq_ok_iff, pure_eq_ok_iff]
  constructor
  · rintro ⟨_, type, htype, ident, hident, indexed, hindexed, rfl⟩
    refine ⟨exists_child?_iff.1 ⟨type, htype⟩, exists_child?_iff.1 ⟨ident, hident⟩, ?_⟩
    intro type' first htype'
    rw [htype] at htype'
    exact Option.some.inj htype' ▸ exists_indexedType_iff.1 ⟨indexed, hindexed⟩ first
  · intro h
    obtain ⟨type, htype⟩ := exists_child?_iff.2 h.type
    obtain ⟨ident, hident⟩ := exists_child?_iff.2 h.name
    obtain ⟨indexed, hindexed⟩ : ∃ i, indexedType ident.text type.kids = .ok i :=
      exists_indexedType_iff.2 fun first => h.mapping type first htype
    exact ⟨_, type, htype, ident, hident, indexed, hindexed, rfl⟩

/-! ### Statements -/

/-- The node is a branch or an expression statement. -/
def isStatement (t : Tree) : Bool :=
  t.name = Rule.expressionStatement || t.name = Rule.ifStatement

theorem isStatement_of_isWrapper {t : Tree} (h : isWrapper t.name = true) :
    isStatement t = false := by
  simp only [isWrapper, Bool.or_eq_true, decide_eq_true_eq] at h
  rw [isStatement]
  rcases h with (h | h) | h <;> rw [h] <;> decide

theorem isWalk_statements : IsWalk (fun t => isWrapper t.name) isStatement statements := by
  have hall : ∀ ts, statementsAll ts = ts.flatMap statements :=
    eq_flatMap (by rw [statementsAll]) fun t ts => by rw [statementsAll]
  intro t
  cases t with
  | token => rfl
  | rule n source start stop ks =>
    rw [statements, hall]
    by_cases hw : isWrapper n = true
    · have hkeep := isStatement_of_isWrapper (t := .rule n source start stop ks) hw
      simp only [hkeep, Tree.name, Tree.kids, hw, if_true]
      rfl
    · have henter : ¬isWrapper (Tree.rule n source start stop ks).name = true := hw
      rw [if_neg hw, if_neg henter, List.append_nil]
      rfl

/-- The walk to the statements of a block starts at the block. -/
theorem statementsAll_eq {b : Tree} (hb : b.name = Rule.block) :
    statementsAll b.kids = statements b := by
  cases b with
  | token => cases hb
  | rule n source start stop ks =>
    obtain rfl : n = Rule.block := hb
    rfl

theorem inOrder_statementsAll {b : Tree} (hb : b.name = Rule.block) :
    InOrder (fun pos x => b.Reaches (fun t => isWrapper t.name) pos x ∧ isStatement x = true)
      (statementsAll b.kids) :=
  statementsAll_eq hb ▸ isWalk_statements.inOrder b

theorem exists_readStatement_iff {t : Tree} :
    (∃ s, readStatement t = .ok s) ↔ t.Has Rule.expression := by
  rw [readStatement]
  split
  · rw [exists_map_eq_ok_iff, readIf]
    exact exists_require_bind_iff fun k => ⟨_, rfl⟩
  · rw [readExpression]
    refine exists_require_bind_iff fun k => ?_
    split
    · exact ⟨_, rfl⟩
    · exact ⟨_, rfl⟩

/-! ### Functions -/

/-- The parameters in a list, if there is one. -/
def parameterNodes (list : Option Tree) : List Tree :=
  (list.map (·.children Rule.parameter)).getD []

/-- The node `x` is a statement of the function: it is reached in its first block through wrappers
only. -/
def StatementAt (t : Tree) (pos : List Nat) (x : Tree) : Prop :=
  ∃ b, t.child? Rule.block = some b ∧ b.Reaches (fun t => isWrapper t.name) pos x ∧
    isStatement x = true

/-- The definition has the parts that a function needs. -/
structure CompleteFunction (t : Tree) : Prop where
  descriptor : t.name = Rule.function → t.Has Rule.descriptor
  parameters : ∀ x ∈ parameterNodes (t.child? Rule.parameterList), x.Has Rule.typeName
  returns : ∀ x ∈ parameterNodes ((t.child? Rule.returns).bind (·.child? Rule.parameterList)),
    x.Has Rule.typeName
  statements : ∀ pos x, StatementAt t pos x → x.Has Rule.expression

/-- The function is the one that the node defines. -/
structure Function.DefinedBy (t : Tree) (f : Function) : Prop where
  name : functionName t = .ok f.name
  visibility : f.visibility = functionVisibility t
  parameters : List.Forall₂ (fun x p => readParameter x = .ok p)
    (parameterNodes (t.child? Rule.parameterList)) f.parameters
  returns : List.Forall₂ (fun x p => readParameter x = .ok p)
    (parameterNodes ((t.child? Rule.returns).bind (·.child? Rule.parameterList))) f.returns
  body : ∃ nodes found, InOrder (StatementAt t) nodes ∧
    List.Forall₂ (fun x s => readStatement x = .ok s) nodes found ∧ f.body = found.filterMap id

theorem exists_functionName_iff {t : Tree} : (∃ name, functionName t = .ok name) ↔
    (t.name ≠ Rule.constructor → t.Has Rule.descriptor) := by
  rw [functionName]
  split
  · rename_i hc
    exact iff_of_true ⟨_, rfl⟩ fun hne => absurd hc hne
  · rename_i hc
    rw [imp_iff_right hc]
    exact exists_require_bind_iff fun k => ⟨_, rfl⟩

theorem readParameters_eq (list : Option Tree) :
    readParameters list = (parameterNodes list).mapM readParameter := by
  cases list <;> rfl

theorem exists_readParameters_iff {list : Option Tree} : (∃ ps, readParameters list = .ok ps) ↔
    ∀ x ∈ parameterNodes list, x.Has Rule.typeName := by
  rw [readParameters_eq, exists_mapM_eq_ok_iff]
  exact forall₂_congr fun x _ => exists_require_bind_iff fun k => ⟨_, rfl⟩

/-- The statements of a function are read in the order of the source. -/
theorem exists_inOrder_readBody (t : Tree) : ∃ nodes, InOrder (StatementAt t) nodes ∧
    readBody (t.child? Rule.block) =
      (nodes.mapM readStatement >>= fun found => pure (found.filterMap id)) := by
  cases hb : t.child? Rule.block with
  | none => exact ⟨[], InOrder.nil (by simp [StatementAt, hb]), rfl⟩
  | some b =>
    refine ⟨statementsAll b.kids, ?_, rfl⟩
    refine (inOrder_statementsAll (name_of_child? hb)).congr fun pos x => ?_
    simp [StatementAt, hb]

theorem readFunction_eq_ok_iff {t : Tree} {f : Function} :
    readFunction t = .ok f ↔ f.DefinedBy t := by
  obtain ⟨nodes, hnodes, hbody⟩ := exists_inOrder_readBody t
  simp only [readFunction, bind_eq_ok_iff, pure_eq_ok_iff, readParameters_eq, mapM_eq_ok_iff, hbody]
  constructor
  · rintro ⟨name, hname, ps, hps, rs, hrs, _, ⟨found, hfound, rfl⟩, rfl⟩
    exact ⟨hname, rfl, hps, hrs, nodes, found, hnodes, hfound, rfl⟩
  · rintro ⟨hname, hvisibility, hps, hrs, nodes', found, hnodes', hfound, hstatements⟩
    -- the statements in the order of the source are the same, whoever lists them
    obtain rfl := hnodes.unique hnodes'
    refine ⟨_, hname, _, hps, _, hrs, _, ⟨found, hfound, rfl⟩, ?_⟩
    rw [← hvisibility, ← hstatements]

theorem exists_readFunction_iff {t : Tree}
    (ht : t.name = Rule.function ∨ t.name = Rule.constructor) :
    (∃ f, readFunction t = .ok f) ↔ CompleteFunction t := by
  obtain ⟨nodes, hnodes, hbody⟩ := exists_inOrder_readBody t
  have hne : t.name ≠ Rule.constructor ↔ t.name = Rule.function := by
    rcases ht with ht | ht <;> rw [ht] <;> decide
  -- no part is read by means of another, so each is read or not on its own
  have hsplit : (∃ f, readFunction t = .ok f) ↔ (∃ name, functionName t = .ok name) ∧
      (∃ ps, readParameters (t.child? Rule.parameterList) = .ok ps) ∧
      (∃ rs, readParameters ((t.child? Rule.returns).bind (·.child? Rule.parameterList)) = .ok rs) ∧
      ∃ found, nodes.mapM readStatement = .ok found := by
    simp only [readFunction, bind_eq_ok_iff, pure_eq_ok_iff, hbody]
    constructor
    · rintro ⟨_, name, hname, ps, hps, rs, hrs, _, ⟨found, hfound, -⟩, -⟩
      exact ⟨⟨name, hname⟩, ⟨ps, hps⟩, ⟨rs, hrs⟩, found, hfound⟩
    · rintro ⟨⟨name, hname⟩, ⟨ps, hps⟩, ⟨rs, hrs⟩, found, hfound⟩
      exact ⟨_, name, hname, ps, hps, rs, hrs, _, ⟨found, hfound, rfl⟩, rfl⟩
  rw [hsplit, exists_functionName_iff, exists_readParameters_iff, exists_readParameters_iff,
    exists_mapM_eq_ok_iff, hne]
  have hstatements : (∀ x ∈ nodes, ∃ s, readStatement x = .ok s) ↔
      ∀ pos x, StatementAt t pos x → x.Has Rule.expression := by
    simp only [hnodes.mem_iff, exists_readStatement_iff]
    exact ⟨fun h pos x hx => h x ⟨pos, hx⟩, fun h x ⟨pos, hx⟩ => h pos x hx⟩
  rw [hstatements]
  exact ⟨fun ⟨h₁, h₂, h₃, h₄⟩ => ⟨h₁, h₂, h₃, h₄⟩, fun ⟨h₁, h₂, h₃, h₄⟩ => ⟨h₁, h₂, h₃, h₄⟩⟩

end ContractNet
