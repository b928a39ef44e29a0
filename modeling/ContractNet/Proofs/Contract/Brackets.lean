import ContractNet.Proofs.Contract.Guard
import ContractNet.Proofs.Expr.Brackets

/-!
# Brackets of guards

Whether the brackets of a guard match, told by the arguments of its call.

* `unwrapped`: arguments that are no list lose a parenthesis at either end, whether these two belong
  together or not;
* `isBalanced_guard`: **the guard of a list of arguments has matching brackets** if the list has
  them; without a list it has them if and only if the unwrapped text has them, up to its end or a
  comma.
-/

namespace ContractNet

open Syntax

/-- The text without one parenthesis at its front and one at its back. -/
def unwrapped (t : Text) : Text :=
  let inner := (Text.after? "(" t).getD t
  if inner.endsWith ")" then inner.dropLast else inner

/-- The text that a guard is cut out of. -/
def guardSource (args : Tree) : Text :=
  match args.child? Rule.expressionList with
  | some list => list.text
  | none => unwrapped args.text

variable {t : Tree} {c : Conditional}

theorem unwrapped_parentheses (m : Text) : unwrapped ("(" ++ m ++ ")") = m := by
  have hafter : Text.after? "(" ("(" ++ m ++ ")") = some (m ++ ")") :=
    List.isPrefixOf?_eq_some_iff_append_eq.2 (List.append_assoc _ m _).symm
  have hends : Text.endsWith (m ++ ")") ")" = true :=
    List.isSuffixOf_iff_suffix.2 (List.suffix_append _ _)
  rw [unwrapped, hafter]
  simp only [Option.getD_some, hends, if_true]
  exact List.dropLast_concat

theorem guardText_eq_trim (args : Tree) :
    guardText args (args.child? Rule.expressionList) = (guardSource args).trim := by
  cases hlist : args.child? Rule.expressionList with
  | some list =>
    rw [guardSource, hlist]
    rfl
  | none =>
    rw [guardSource, hlist]
    simp only [guardText, unwrapped]
    split_ifs <;> rfl

theorem exists_arguments_of_readCall? {line : Int} {e : Tree}
    (h : readCall? line e = some (.conditional c)) :
    ∃ args, e.child? Rule.callArguments = some args ∧
      c.condition = guardText args (args.child? Rule.expressionList) := by
  unfold readCall? at h
  split at h
  · rename_i args callee _ hargs _
    dsimp only at h
    split_ifs at h
    · cases h
      exact ⟨args, hargs, rfl⟩
    · cases h
  · cases h

/-- A guard is read at a call, from the text of its arguments. -/
theorem exists_arguments_of_readStatement (h : readStatement t = .ok (some (.conditional c)))
    (hkind : c.kind ≠ Conditional.ifKind) :
    ∃ e args, t.child? Rule.expression = some e ∧ e.child? Rule.callArguments = some args ∧
      c.guard = Expr.firstArgument (guardSource args).trim := by
  rw [readStatement] at h
  split at h
  · simp only [readIf, map_eq_ok_iff, bind_eq_ok_iff, pure_eq_ok_iff] at h
    obtain ⟨_, ⟨cond, -, rfl⟩, hc⟩ := h
    cases hc
    exact absurd rfl hkind
  · simp only [readExpression, bind_eq_ok_iff, require_eq_ok_iff] at h
    obtain ⟨e, he, h⟩ := h
    split at h
    · cases pure_eq_ok_iff.1 h
    · obtain ⟨args, hargs, hcondition⟩ := exists_arguments_of_readCall? (pure_eq_ok_iff.1 h)
      refine ⟨e, args, he, hargs, ?_⟩
      rw [Conditional.guard, if_neg hkind, hcondition, guardText_eq_trim]

theorem Function.DefinedBy.mem_body_iff {d : Tree} {f : Function} (h : f.DefinedBy d)
    {s : Statement} :
    s ∈ f.body ↔ ∃ pos t, StatementAt d pos t ∧ readStatement t = .ok (some s) := by
  constructor
  · intro hs
    obtain ⟨nodes, found, horder, hread, hbody⟩ := h.body
    rw [hbody, List.mem_filterMap] at hs
    obtain ⟨_, hs, rfl⟩ := hs
    obtain ⟨t, ht, hsame⟩ := exists_left_of_mem hread hs
    obtain ⟨pos, hpos⟩ := horder.mem_iff.1 ht
    exact ⟨pos, t, hpos, hsame⟩
  · rintro ⟨pos, t, ht, hs⟩
    exact h.mem_body ht hs

/-- **Brackets of guards.**  Every function of a contract is defined at some node, and its
statements are those that are read at the statements of this node.  For each that is the call of a
guard, the brackets of the guard match if those of the list of arguments do, or those between
parentheses around the arguments.  Without a list they match if and only if those of the unwrapped
text do, up to its end or a comma. -/
theorem isBalanced_guard {root : Tree} {contract : Contract}
    (hbuild : Contract.build (some root) = .ok contract) {f : Function}
    (hf : f ∈ contract.allFunctions) :
    (∃ d, FunctionAt root f d) ∧ ∀ d, FunctionAt root f d →
      (∀ s, s ∈ f.body ↔ ∃ pos t, StatementAt d pos t ∧ readStatement t = .ok (some s)) ∧
      ∀ pos t c, StatementAt d pos t → readStatement t = .ok (some (.conditional c)) →
        c.kind ≠ Conditional.ifKind →
        ∃ e args, t.child? Rule.expression = some e ∧ e.child? Rule.callArguments = some args ∧
          (∀ list, args.child? Rule.expressionList = some list →
            Expr.IsBalanced list.text → Expr.IsBalanced c.guard) ∧
          (args.child? Rule.expressionList = none →
            (Expr.IsBalanced c.guard ↔ Expr.IsHeadBalanced (unwrapped args.text)) ∧
            ∀ inner : Text, args.text = "(" ++ inner ++ ")" →
              Expr.IsBalanced inner → Expr.IsBalanced c.guard) := by
  obtain ⟨pos, t, hcontractAt, hcontract⟩ := exists_contractAt_of_build hbuild
  obtain ⟨pos', d, hd, hdefined⟩ := hcontract.exists_definition hf
  refine ⟨⟨d, pos, t, pos', hcontractAt, hd, hdefined⟩, ?_⟩
  rintro d ⟨-, -, -, -, -, hdefined⟩
  refine ⟨fun s => hdefined.mem_body_iff, fun _ t c _ hread hkind => ?_⟩
  obtain ⟨e, args, he, hargs, hguard⟩ := exists_arguments_of_readStatement hread hkind
  have hiff : Expr.IsBalanced c.guard ↔ Expr.IsHeadBalanced (guardSource args) :=
    hguard ▸ Expr.isBalanced_firstArgument_iff _
  refine ⟨e, args, he, hargs, fun list hlist hbalanced => ?_, fun hnone => ?_⟩
  · rw [hiff, guardSource, hlist]
    exact hbalanced.head
  · have hsource : guardSource args = unwrapped args.text := by rw [guardSource, hnone]
    refine ⟨hsource ▸ hiff, fun inner htext hbalanced => ?_⟩
    rw [hiff, hsource, htext, unwrapped_parentheses]
    exact hbalanced.head

/-- A call of `require`, whose arguments are given by their text alone. -/
def openCall (arguments : Text) : Tree :=
  .rule "expressionStatement" [] 4 4 [
    .rule "expression" [] 4 4 [
      .rule "expression" [] 4 4 [.token "require" 4 4],
      .token "(" 4 4,
      .rule "functionCallArguments" arguments 4 4 [],
      .token ")" 4 4],
    .token ";" 4 4]

/-- A function with this call. -/
def openDefinition (arguments : Text) : Tree := singleDefinition (openCall arguments)

/-- A contract with this function. -/
def vaultTree (arguments : Text) : Tree := singleTree (openCall arguments)

/-- The guard of this call. -/
def openGuard (condition : Text) : Conditional := ⟨"require", condition, 4, 0⟩

/-- The function with this guard. -/
def openFunction (condition : Text) : Function := singleFunction (openGuard condition)

/-- The contract with this function. -/
def vaultContract (condition : Text) : Contract := singleContract (openGuard condition)

/-- Arguments with parentheses of their own. -/
theorem isBalanced_guard_parentheses :
    Contract.build (some (vaultTree "(isOwner(msg.sender), \"no\")")) =
        .ok (vaultContract "isOwner(msg.sender), \"no\"") ∧
      Expr.IsBalanced (openGuard "isOwner(msg.sender), \"no\"").guard := by
  have hbuild : Contract.build (some (vaultTree "(isOwner(msg.sender), \"no\")")) =
      .ok (vaultContract "isOwner(msg.sender), \"no\"") := by decide +kernel
  have hd : FunctionAt (vaultTree "(isOwner(msg.sender), \"no\")")
      (openFunction "isOwner(msg.sender), \"no\"")
      (openDefinition "(isOwner(msg.sender), \"no\")") := functionAt_single (by decide +kernel)
  have ht : StatementAt (openDefinition "(isOwner(msg.sender), \"no\")") [0, 0]
      (openCall "(isOwner(msg.sender), \"no\")") := statementAt_single rfl
  obtain ⟨e, args, he, hargs, -, hnone⟩ :=
    ((isBalanced_guard hbuild (List.mem_singleton_self _)).2 _ hd).2 _ _
      (openGuard "isOwner(msg.sender), \"no\"") ht (by decide +kernel) (by decide)
  obtain rfl := Option.some.inj he
  obtain rfl := Option.some.inj hargs
  have hinner : Expr.IsBalanced "isOwner(msg.sender), \"no\"" := by decide +kernel
  exact ⟨hbuild, (hnone rfl).2 _ (by decide +kernel) hinner⟩

/-- Arguments without: the parenthesis that closes the call in the guard is taken off. -/
theorem isBalanced_guard_unwrapped :
    Contract.build (some (vaultTree "isOwner(msg.sender)")) =
        .ok (vaultContract "isOwner(msg.sender") ∧
      Expr.IsBalanced "isOwner(msg.sender)" ∧
      ¬Expr.IsBalanced (openGuard "isOwner(msg.sender").guard := by
  decide +kernel

end ContractNet
