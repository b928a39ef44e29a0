import ContractNet.Proofs.Contract.Build
import ContractNet.Proofs.Expr.Arguments

/-!
# Guards

What a call of `require` or `assert` is read as.

* `GuardCall` says that a statement is such a call, with a list of arguments;
* `FunctionAt` says where in the tree a function of the contract is defined;
* `guard_of_guardCall`: **the guard is the first argument**, trimmed, whatever the reasons after it
  are.
-/

namespace ContractNet

open Syntax

/-- The nodes of a list are `items`, with the token `,` between neighbours. -/
inductive Separated : List Tree → List Tree → Prop
  | last (x : Tree) : Separated [x] [x]
  | next {items nodes : List Tree} {comma : Tree} (x : Tree) (hcomma : isTokenOf "," comma = true)
      (h : Separated items nodes) : Separated (x :: items) (x :: comma :: nodes)

/-- The statement `t` is the expression `e`, a call of the guard `callee` with the arguments `args`,
which hold a list of the nodes `items` without a text of its own. -/
structure GuardCall (t e callee args : Tree) (items : List Tree) : Prop where
  statement : t.name = Rule.expressionStatement
  expression : t.child? Rule.expression = some e
  head : e.kids.head? = some callee
  calleeRule : callee.name = Rule.expression
  guard : callee.text = "require" ∨ callee.text = "assert"
  arguments : e.child? Rule.callArguments = some args
  list : ∃ start stop nodes,
    args.child? Rule.expressionList = some (.rule Rule.expressionList [] start stop nodes) ∧
      Separated items nodes

/-- The function is defined at the node `d`, in the contract of the tree `root`. -/
def FunctionAt (root : Tree) (f : Function) (d : Tree) : Prop :=
  ∃ pos t pos', ContractAt root pos t ∧ t.Reaches entersForMembers pos' d ∧ f.DefinedBy d

variable {t e callee args first : Tree} {items others nodes : List Tree}

/-- A call is no assignment. -/
theorem readAssignment?_eq_none (hargs : args ∈ nodes) (hname : args.name = Rule.callArguments) :
    readAssignment? nodes = none := by
  unfold readAssignment?
  split
  · rename_i target op value
    have hexpr : Rule.callArguments ≠ Rule.expression := by decide
    have htoken : args.isToken = false := by
      rw [Tree.isToken, hname]
      decide
    simp only [List.mem_cons, List.not_mem_nil, or_false] at hargs
    rcases hargs with rfl | rfl | rfl
    · simp [hname, hexpr]
    · simp [htoken]
    · simp [hname, hexpr]
  · rfl

/-- A call of a guard is read as a condition with the text of all arguments. -/
theorem GuardCall.exists_readStatement (h : GuardCall t e callee args items) :
    ∃ nodes, Separated items nodes ∧
      readStatement t =
        .ok (some (.conditional ⟨callee.text, (Tree.textAll nodes).trim, t.startLine, 0⟩)) := by
  obtain ⟨start, stop, nodes, hlist, hitems⟩ := h.list
  refine ⟨nodes, hitems, ?_⟩
  have hnotIf : t.name ≠ Rule.ifStatement := by
    rw [h.statement]
    decide
  have hassign : readAssignment? e.kids = none :=
    readAssignment?_eq_none (List.mem_of_find?_eq_some h.arguments) (name_of_child? h.arguments)
  obtain ⟨rest, hkids⟩ : ∃ rest, e.kids = callee :: rest := List.head?_eq_some_iff.1 h.head
  have htext : (Tree.rule Rule.expressionList [] start stop nodes).text = Tree.textAll nodes := rfl
  have hguard : (decide (callee.text = "require") || decide (callee.text = "assert")) = true := by
    simpa using h.guard
  have hcall : readCall? t.startLine e =
      some (.conditional ⟨callee.text, (Tree.textAll nodes).trim, t.startLine, 0⟩) := by
    unfold readCall?
    rw [h.arguments, hkids]
    simp only [h.calleeRule, ne_eq, not_true_eq_false, if_false, hguard, if_true, hlist, guardText,
      htext]
  rw [readStatement, if_neg hnotIf, readExpression, bind_eq_ok_iff]
  refine ⟨e, require_eq_ok_iff.2 h.expression, ?_⟩
  rw [hassign, hcall]
  rfl

/-- The text of a list starts with its first item, which ends there or at a comma. -/
theorem Separated.textAll_eq (h : Separated (first :: others) nodes) :
    Tree.textAll nodes = first.text ∨
      ∃ rest : Text, Tree.textAll nodes = first.text ++ ("," ++ rest) := by
  cases h with
  | last => exact .inl (by rw [Tree.textAll, Tree.textAll, List.append_nil])
  | @next _ nodes comma _ hcomma =>
    simp only [isTokenOf, Bool.and_eq_true, decide_eq_true_eq] at hcomma
    exact .inr ⟨Tree.textAll nodes, by rw [Tree.textAll, Tree.textAll, hcomma.2]⟩

/-- What is read at a statement of a function is in its body. -/
theorem Function.DefinedBy.mem_body {d : Tree} {f : Function} (h : f.DefinedBy d) {pos : List Nat}
    (ht : StatementAt d pos t) {s : Statement} (hs : readStatement t = .ok (some s)) :
    s ∈ f.body := by
  obtain ⟨nodes, found, horder, hread, hbody⟩ := h.body
  obtain ⟨s', hs', hsame⟩ := exists_left_of_mem hread.flip (horder.mem_iff.2 ⟨pos, ht⟩)
  obtain rfl : some s = s' := by simpa using hs.symm.trans hsame
  rw [hbody, List.mem_filterMap]
  exact ⟨some s, hs', rfl⟩

/-- **The guard is the first argument.**  A call of `require` or `assert` is read as a condition.
If the text of the first argument is one argument, this text, trimmed, is what the condition tests,
whatever the other arguments are.  Every function of a contract is defined at some node, and the
condition is in its body if the call is a statement of such a node. -/
theorem guard_of_guardCall (h : GuardCall t e callee args (first :: others))
    (hfirst : Expr.OneArgument first.text) :
    ∃ c : Conditional, readStatement t = .ok (some (.conditional c)) ∧ c.kind = callee.text ∧
      c.guard = first.text.trim ∧
      ∀ root contract, Contract.build (some root) = .ok contract →
        ∀ f ∈ contract.allFunctions, (∃ d, FunctionAt root f d) ∧
          ∀ d, FunctionAt root f d → ∀ pos, StatementAt d pos t → .conditional c ∈ f.body := by
  obtain ⟨nodes, hitems, hread⟩ := h.exists_readStatement
  have hkind : callee.text ≠ Conditional.ifKind := by
    rcases h.guard with hguard | hguard <;> rw [hguard] <;> decide
  refine ⟨_, hread, rfl, ?_, fun root contract hbuild f hf => ?_⟩
  · rw [Conditional.guard, if_neg hkind]
    rcases hitems.textAll_eq with htext | ⟨rest, htext⟩
    · rw [htext, hfirst.firstArgument_trim]
    · rw [htext, hfirst.firstArgument_append]
  · obtain ⟨pos, root', hroot, hcontract⟩ := exists_contractAt_of_build hbuild
    obtain ⟨pos', d, hd, hdefined⟩ := hcontract.exists_definition hf
    refine ⟨⟨d, pos, root', pos', hroot, hd, hdefined⟩, ?_⟩
    rintro d ⟨-, -, -, -, -, hdefined⟩ _ hpos
    exact hdefined.mem_body hpos hread

/-- The first argument of a call: it has a comma in brackets and one in a string. -/
def limitArgument : Tree := .rule "expression" " max(a, b) < limit[\"),\"] " 4 4 []

/-- A call with this argument and a reason that has brackets and commas of its own. -/
def limitCall : Tree :=
  .rule "expression" [] 4 4 [
    .rule "expression" [] 4 4 [.token "require" 4 4],
    .rule "functionCallArguments" [] 4 4 [
      .token "(" 4 4,
      .rule "expressionList" [] 4 4 [
        limitArgument,
        .token "," 4 4,
        .rule "expression" [] 4 4 [.token "'no, (really) ]" 4 4]],
      .token ")" 4 4]]

/-- A function with one statement. -/
def singleDefinition (statement : Tree) : Tree :=
  .rule "functionDefinition" [] 3 5 [
    .rule "functionDescriptor" [] 3 3 [
      .token "function" 3 3, .rule "identifier" [] 3 3 [.token "open" 3 3]],
    .rule "parameterList" [] 3 3 [],
    .rule "block" [] 3 5 [.rule "statement" [] 4 4 [statement]]]

/-- A contract with this function. -/
def singleTree (statement : Tree) : Tree :=
  .rule "sourceUnit" [] 1 6 [
    .rule "contractDefinition" [] 1 6 [
      .token "contract" 1 1, .rule "identifier" [] 1 1 [.token "Vault" 1 1],
      singleDefinition statement]]

/-- The function, whose statement is read as a condition. -/
def singleFunction (c : Conditional) : Function where
  name := "open"
  visibility := "internal"
  body := [.conditional c]

/-- The contract with this function. -/
def singleContract (c : Conditional) : Contract where
  name := "Vault"
  functions := [singleFunction c]

theorem functionAt_single {f : Function} (h : readFunction (singleDefinition t) = .ok f) :
    FunctionAt (singleTree t) f (singleDefinition t) :=
  ⟨[0], _, [2], ⟨.down rfl rfl (.here _), rfl, rfl⟩, .down rfl rfl (.here _),
    readFunction_eq_ok_iff.1 h⟩

theorem statementAt_single (h : t.name = Rule.expressionStatement) :
    StatementAt (singleDefinition t) [0, 0] t :=
  ⟨_, rfl, .down rfl rfl (.down rfl rfl (.here _)), by rw [isStatement, h]; rfl⟩

/-- The call as a statement. -/
def limitStatement : Tree := .rule "expressionStatement" [] 4 4 [limitCall]

/-- What the call is read as. -/
def limitGuard : Conditional :=
  ⟨"require", "max(a, b) < limit[\"),\"] ,'no, (really) ]", 4, 0⟩

theorem guard_of_guardCall_limit :
    Expr.OneArgument limitArgument.text ∧
      readStatement limitStatement = .ok (some (.conditional limitGuard)) ∧
      Contract.build (some (singleTree limitStatement)) = .ok (singleContract limitGuard) ∧
      StatementAt (singleDefinition limitStatement) [0, 0] limitStatement ∧
      .conditional limitGuard ∈ (singleFunction limitGuard).body ∧
      limitGuard.guard = "max(a, b) < limit[\"),\"]" := by
  have hfirst : Expr.OneArgument limitArgument.text := by decide +kernel
  have htrim : limitArgument.text.trim = "max(a, b) < limit[\"),\"]" := by decide +kernel
  have hlimit : readStatement limitStatement = .ok (some (.conditional limitGuard)) := by
    decide +kernel
  have hbuild : Contract.build (some (singleTree limitStatement)) =
      .ok (singleContract limitGuard) := by decide +kernel
  have hd : FunctionAt (singleTree limitStatement) (singleFunction limitGuard)
      (singleDefinition limitStatement) := functionAt_single (by decide +kernel)
  have ht : StatementAt (singleDefinition limitStatement) [0, 0] limitStatement :=
    statementAt_single rfl
  obtain ⟨c, hread, -, hguard, hbody⟩ :=
    guard_of_guardCall (t := limitStatement)
      ⟨rfl, rfl, rfl, rfl, .inl (by decide +kernel), rfl, 4, 4, _, rfl,
        .next limitArgument (by decide +kernel) (.last _)⟩ hfirst
  obtain rfl : limitGuard = c := by simpa using hlimit.symm.trans hread
  exact ⟨hfirst, hlimit, hbuild, ht,
    (hbody _ _ hbuild _ (List.mem_singleton_self _)).2 _ hd _ ht, hguard.trans htrim⟩

end ContractNet
